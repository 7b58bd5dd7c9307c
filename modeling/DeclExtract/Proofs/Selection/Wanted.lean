import DeclExtract.Proofs.Merge.FirstSighting

/-!
# Wanted positions

Whoever edits the source text asks a selection whether the declaration at a position is copied. The
answer goes by the positions that copied nodes show (`UseGraph.wants_iff`). A node shows one
position, while the graph knows every position with a column at which the declaration was seen. So
of all these positions only the one that is shown is wanted (`Merger.Runs.wants_iff`): the one of
the first sighting, if that had a column. A declaration that was seen at two places is not wanted at
the other one, although it is copied (`UseGraph.wants_moved`).

No two nodes show one position with a column, so a declaration that is not copied is not wanted
where it stands. But a position without a column says nothing of which declaration on the line is
meant. It is wanted for all of them as soon as one of them is copied
(`Merger.Runs.wants_iff_of_notMem`, `UseGraph.wants_sameLine`).
-/

namespace DeclExtract

namespace UseGraph

variable {g : UseGraph} {t : Targets} {id : Nat} {n : Node} {p : Position}

/-- **What is wanted is what copied nodes show.** -/
theorem wants_iff : (g.select t).wants p = true ↔
    ∃ id ∈ (g.select t).seen, ∃ n, g.node? id = some n ∧ n.position = p := by
  show (((g.select t).seen.filterMap g.node?).map Node.position).contains p = true ↔ _
  rw [List.contains_iff_mem, List.mem_map]
  constructor
  · rintro ⟨n, hn, hp⟩
    obtain ⟨id, hid, hn⟩ := List.mem_filterMap.mp hn
    exact ⟨id, hid, n, hn, hp⟩
  · rintro ⟨id, hid, n, hn, hp⟩
    exact ⟨n, List.mem_filterMap.mpr ⟨id, hid, hn⟩, hp⟩

end UseGraph

namespace Merger

variable {m : Merger} {steps : List Step} {t : Targets} {id : Nat} {n : Node} {p : Position}
variable {x : Sighting}

namespace Runs

variable (run : empty.Runs steps m)

include run

/-- **A copied declaration is wanted at the position that it shows**, and at no other one with a
column. -/
theorem wants_iff (hcolumn : p.hasColumn = true) (hlookup : m.graph.lookup (.position p) = some id)
    (hn : m.graph.node? id = some n) (hid : id ∈ (m.graph.select t).seen) :
    (m.graph.select t).wants p = true ↔ n.position = p := by
  rw [UseGraph.wants_iff]
  refine ⟨fun hwanted ↦ ?_, fun hp ↦ ⟨id, hid, n, hn, hp⟩⟩
  obtain ⟨other, -, k, hk, rfl⟩ := hwanted
  -- another node with this position would be the one that it is looked up to
  have hshown : .position k.position ∈ k.identities :=
    Node.position_mem_identities_iff.mpr ⟨rfl, hcolumn⟩
  have hother :=
    (run.wellFormed wellFormed_empty).lookup_of_mem_identities run.recognisable hk hshown
  rw [hlookup, Option.some_inj] at hother
  rw [hother, hk, Option.some_inj] at hn
  rw [hn]

/-- **The position of a declaration that is not copied** is wanted just when it has no column, and a
copied declaration shows the same. -/
theorem wants_iff_of_notMem (hn : m.graph.node? id = some n) (hid : id ∉ (m.graph.select t).seen) :
    (m.graph.select t).wants n.position = true ↔ n.position.hasColumn = false
      ∧ ∃ other ∈ (m.graph.select t).seen, ∃ k, m.graph.node? other = some k
      ∧ k.position = n.position := by
  rw [UseGraph.wants_iff]
  refine ⟨fun hwanted ↦ ⟨?_, hwanted⟩, fun h ↦ h.2⟩
  obtain ⟨other, hother, k, hk, hposition⟩ := hwanted
  -- with a column the two nodes would share an identity
  by_contra hcolumn
  have hshown : .position n.position ∈ n.identities :=
    Node.position_mem_identities_iff.mpr ⟨rfl, Bool.eq_true_of_not_eq_false hcolumn⟩
  have hshown' : .position n.position ∈ k.identities :=
    Node.position_mem_identities_iff.mpr ⟨hposition, Bool.eq_true_of_not_eq_false hcolumn⟩
  have heq :=
    (run.wellFormed wellFormed_empty).eq_of_shared_identity run.recognisable hn hk hshown hshown'
  exact hid (heq ▸ hother)

/-- The position that a declaration shows is that of one of its sightings, if it was ever seen at a
column. -/
theorem exists_shown (hreflects : m.Reflects (steps.flatMap Step.sightings))
    (hx : x ∈ steps.flatMap Step.sightings) (hcolumn : x.node.position.hasColumn = true) :
    ∃ y ∈ steps.flatMap Step.sightings, m.forest.find y.slot = m.forest.find x.slot
      ∧ y.node.position.hasColumn = true
      ∧ (m.node (m.forest.find x.slot)).position = y.node.position := by
  have hm := run.wellFormed wellFormed_empty
  have hslot := hreflects.slot_lt hx
  have hshows := run.showsSightings hreflects (hm.node?_graph_rank hslot)
  have hshown := hshows.column_iff.mpr ⟨x, hx, hm.hasNumber hslot, hcolumn⟩
  obtain ⟨y, hy, hnumber, hposition⟩ := hshows.exists_position hshown
  exact ⟨y, hy, hnumber.find_eq (hm.hasNumber hslot), hposition ▸ hshown, hposition.symm⟩

/-- The position of a first sighting is shown, if it has a column. -/
theorem position_eq_first {before after : List Sighting}
    (hsplit : steps.flatMap Step.sightings = before ++ x :: after) (hne : m.forest.find x.slot ≠ 0)
    (hfirst : ∀ y ∈ before, m.forest.find y.slot ≠ m.forest.find x.slot)
    (hcolumn : x.node.position.hasColumn = true) :
    (m.node (m.forest.find x.slot)).position = x.node.position := by
  have hshown := (run.retains_first hsplit hne hfirst).mem_identities _
    (Node.position_mem_identities_iff.mpr ⟨rfl, hcolumn⟩)
  exact (Node.position_mem_identities_iff.mp hshown).1

end Runs

end Merger

namespace UseGraph

open Merger

/-- **Where a copied declaration is wanted.** When accepted batches without ordinals are merged, the
position of every sighting that has a column is looked up to the declaration that it was recognised
as. The node of the declaration shows the position of one of its sightings, and that of the first if
the first has a column. If the declaration is copied, it is wanted at the sighting's position just
when that is the one which is shown; so it is if all sightings of the declaration that have a column
have the same position. -/
theorem wants_ofBatches {bs : List Batch} (hcheck : ∀ b ∈ bs, b.check = .ok ())
    (hord : ∀ b ∈ bs, ∀ n ∈ b.nodes, n.subgraph = none) : ∃ steps m, steps.map Step.batch = bs
      ∧ Merger.empty.Runs steps m ∧ (ofBatches bs).result = .ok m.graph
      ∧ ∀ s ∈ steps, ∀ x ∈ s.sightings, x.node.position.hasColumn = true → ∃ id n,
        s.merged.slotOf x.node.id = x.slot ∧ m.HasNumber x.slot id
        ∧ m.graph.lookup (.position x.node.position) = some id ∧ m.graph.node? id = some n
        ∧ (∃ y ∈ steps.flatMap Step.sightings, m.HasNumber y.slot id
          ∧ y.node.position.hasColumn = true ∧ n.position = y.node.position)
        ∧ (∀ before y after, steps.flatMap Step.sightings = before ++ y :: after →
          m.HasNumber y.slot id → (∀ z ∈ before, ¬ m.HasNumber z.slot id) →
            y.node.position.hasColumn = true → n.position = y.node.position)
        ∧ (∀ t, id ∈ (m.graph.select t).seen →
          ((m.graph.select t).wants x.node.position = true ↔ n.position = x.node.position))
        ∧ ((∀ y ∈ steps.flatMap Step.sightings, m.HasNumber y.slot id →
            y.node.position.hasColumn = true → y.node.position = x.node.position) →
          ∀ t, id ∈ (m.graph.select t).seen →
            (m.graph.select t).wants x.node.position = true) := by
  obtain ⟨steps, m, rfl, run, hgraph⟩ := exists_run_ofBatches hcheck
  have hm := run.wellFormed wellFormed_empty
  have hreflects : m.Reflects (steps.flatMap Step.sightings) :=
    run.reflects reflects_empty wellFormed_empty fun s hs ↦ hord _ (List.mem_map_of_mem hs)
  refine ⟨steps, m, rfl, run, hgraph, fun s hs x hx hcolumn ↦ ?_⟩
  have hpast : x ∈ steps.flatMap Step.sightings := List.mem_flatMap.mpr ⟨s, hs, hx⟩
  have hslot := hreflects.slot_lt hpast
  have hidentity : .position x.node.position ∈ x.node.identities :=
    Node.position_mem_identities_iff.mpr ⟨rfl, hcolumn⟩
  obtain ⟨hbefore, hb, hmerged, -⟩ := run.of_mem wellFormed_empty hs
  obtain ⟨hlookup, -⟩ := hreflects.lookup_graph hm hpast hidentity
  have hnode := hm.node?_graph_rank hslot
  have hnumber {y : Sighting} (hy : y ∈ steps.flatMap Step.sightings) :
      m.HasNumber y.slot (m.forest.rank x.slot) ↔ m.forest.find y.slot = m.forest.find x.slot :=
    hm.hasNumber_rank_iff (hreflects.slot_lt hy)
  have hwants {t : Targets} (hid : m.forest.rank x.slot ∈ (m.graph.select t).seen) :=
    run.wants_iff hcolumn hlookup hnode hid
  obtain ⟨y, hy, hclass, hycolumn, hyshown⟩ := run.exists_shown hreflects hpast hcolumn
  refine ⟨m.forest.rank x.slot, m.declaration (m.forest.find x.slot), hmerged ▸ slotOf_id hb hx,
    hm.hasNumber hslot, hlookup, hnode, ⟨y, hy, (hnumber hy).mpr hclass, hycolumn, hyshown⟩, ?_,
    fun t hid ↦ hwants hid, ?_⟩
  · intro before z after hsplit hz hfirst hzcolumn
    have hzclass := (hnumber (hsplit ▸ List.mem_append_right _ List.mem_cons_self)).mp hz
    have hroot : m.forest.find z.slot ∉ m.anonymousRoots :=
      hzclass ▸ hm.known_not_root (hreflects.known_eq hpast hidentity)
    refine hzclass ▸ run.position_eq_first hsplit
      (fun hzero ↦ hroot (hzero ▸ hm.root_mem)) ?_ hzcolumn
    intro w hw hwclass
    have hwmem : w ∈ steps.flatMap Step.sightings := hsplit ▸ List.mem_append_left _ hw
    exact hfirst w hw ((hnumber hwmem).mpr (hwclass.trans hzclass))
  · intro hsame t hid
    exact (hwants hid).mpr (hyshown.trans (hsame y hy ((hnumber hy).mpr hclass) hycolumn))

/-- The type of the three batches is wanted where it was seen. -/
theorem wants_bridged :
    (∀ b ∈ bridged, b.check = .ok ()) ∧ (∀ b ∈ bridged, ∀ n ∈ b.nodes, n.subgraph = none)
    ∧ ∃ steps m, steps.map Step.batch = bridged ∧ Merger.empty.Runs steps m
      ∧ (ofBatches bridged).result = .ok m.graph
      ∧ ∃ s ∈ steps, ∃ x ∈ s.sightings, x.node.position.hasColumn = true ∧ ∃ id,
        m.graph.lookup (.position x.node.position) = some id ∧ ∀ t, id ∈ (m.graph.select t).seen →
          (m.graph.select t).wants x.node.position = true := by
  have hord : ∀ b ∈ bridged, ∀ n ∈ b.nodes, n.subgraph = none := by decide
  obtain ⟨steps, m, hsteps, run, hgraph, hwants⟩ := wants_ofBatches check_bridged hord
  have hseen := map_node_flatMap_sightings steps
  rw [hsteps] at hseen
  obtain ⟨x, hx, hcolumn⟩ :
      ∃ x ∈ steps.flatMap Step.sightings, x.node.position.hasColumn = true := by
    have hany : ∃ n ∈ bridged.flatMap Batch.nodes, n.position.hasColumn = true := by decide
    obtain ⟨n, hn, hcolumn⟩ := hany
    rw [← hseen] at hn
    obtain ⟨x, hx, rfl⟩ := List.mem_map.mp hn
    exact ⟨x, hx, hcolumn⟩
  obtain ⟨s, hs, hxs⟩ := List.mem_flatMap.mp hx
  obtain ⟨id, n, -, -, hlookup, -, -, -, -, hall⟩ := hwants s hs x hxs hcolumn
  refine ⟨check_bridged, hord, steps, m, hsteps, run, hgraph, s, hs, x, hxs, hcolumn, id,
    hlookup, hall ?_⟩
  -- the batches know of one position only
  intro y hy _ hycolumn
  have hone : ∀ n ∈ bridged.flatMap Batch.nodes, ∀ k ∈ bridged.flatMap Batch.nodes,
      n.position.hasColumn = true → k.position.hasColumn = true → n.position = k.position := by
        decide
  rw [← hseen] at hone
  exact hone _ (List.mem_map_of_mem hy) _ (List.mem_map_of_mem hx) hycolumn hcolumn

/-- The method that was moved. -/
def movedMethod : Targets where
  names := ["M"]
  names_ne_nil := by decide
  ne_empty := by decide
  pairwise := by decide

/-- **The method is not wanted where it was moved to**, although it is looked up there and
copied. -/
theorem wants_moved :
    (∀ b ∈ moved, b.check = .ok ()) ∧ (∀ b ∈ moved, ∀ n ∈ b.nodes, n.subgraph = none)
    ∧ ∃ g, (ofBatches moved).result = .ok g ∧ ∃ b ∈ moved, ∃ k ∈ b.nodes,
    k.position.hasColumn = true
      ∧ ∃ id, g.lookup (.position k.position) = some id ∧ id ∈ (g.select movedMethod).seen
        ∧ (g.select movedMethod).wants k.position = false := by
  obtain ⟨steps, m, hsteps, run, hgraph⟩ := exists_run_ofBatches check_moved
  have hg := (run.wellFormed wellFormed_empty).wellFormed_graph
  obtain ⟨id, n, hn, hagrees, hlookup, hplace⟩ := run.exists_moved hsteps
  have hseen : id ∈ (m.graph.select movedMethod).seen :=
    (hg.isLeast_seen movedMethod).1.target hn (by rw [hagrees.kind]; decide)
    (by rw [hagrees.name]; decide)
  refine ⟨check_moved, subgraph_moved, m.graph, hgraph,
    ⟨[Node.root, movedUser, movedTo]⟩, by decide, movedTo,
    by decide, by decide, id, hlookup, hseen, Bool.eq_false_of_not_eq_true fun hwanted ↦ ?_⟩
  rw [run.wants_iff (by decide) hlookup hn hseen, hplace] at hwanted
  exact absurd hwanted (by decide)

/-! ### What is wanted of declarations that are not copied -/

/-- **Where a declaration is wanted that is not copied.** In the graph of accepted batches, whatever
ordinals they carry, its position is wanted just when it has no column and some copied declaration
shows it as well. -/
theorem wants_unseen_ofBatches {bs : List Batch} (hcheck : ∀ b ∈ bs, b.check = .ok ()) :
    ∃ g, (ofBatches bs).result = .ok g ∧ ∀ t id n, g.node? id = some n → id ∉ (g.select t).seen →
      ((g.select t).wants n.position = true ↔ n.position.hasColumn = false
        ∧ ∃ other ∈ (g.select t).seen, ∃ k, g.node? other = some k ∧ k.position = n.position) := by
  obtain ⟨steps, m, -, run, hgraph⟩ := exists_run_ofBatches hcheck
  exact ⟨m.graph, hgraph, fun t id n hn hid ↦ run.wants_iff_of_notMem hn hid⟩

/-- The function that does not come along with the variable and its method is not wanted where it is
declared. -/
theorem wants_unseen_listing : (∀ b ∈ [Batch.listing], b.check = .ok ())
    ∧ ∃ g, (ofBatches [Batch.listing]).result = .ok g
      ∧ ∃ id n, g.node? id = some n ∧ id ∉ (g.select movedTargets).seen
        ∧ n.position.hasColumn = true
        ∧ (g.select movedTargets).wants n.position = false := by
  have hcheck : ∀ b ∈ [Batch.listing], b.check = .ok () := by decide
  obtain ⟨g, hg, hnodes, hlookup⟩ := Batch.exported_listing.exists_graph
  obtain ⟨-, hseen⟩ := Batch.select_listing (wellFormed_of_ofBatches hg) hnodes hlookup
  obtain ⟨g', hg', hwants⟩ := wants_unseen_ofBatches hcheck
  obtain rfl : g = g' := Except.ok.inj (hg.symm.trans hg')
  have hfunction : g.node? 3 = some Batch.strayFunction := hnodes 3
  have hunseen : 3 ∉ (g.select movedTargets).seen := by
    rw [hseen]
    decide
  refine ⟨hcheck, g, hg, 3, _, hfunction, hunseen, by decide, Bool.eq_false_of_not_eq_true
    fun h ↦ ?_⟩
  exact absurd ((hwants _ 3 _ hfunction hunseen).mp h).1 (by decide)

/-- A function on a line of a file that is known without the column. -/
def functionOnLine (id : Nat) (name : String) : Node where
  id := id
  name := name
  exported := false
  kind := .function
  path := some ⟨"pkg", name⟩
  position := { file := "x.go", line := 4 }

/-- Two functions on one line. -/
def sameLine : Batch :=
  ⟨[graphRoot, functionOnLine 1 "a", functionOnLine 2 "b"]⟩

/-- The first of them. -/
def firstOnLine : Targets where
  names := ["a"]
  names_ne_nil := by decide
  ne_empty := by decide
  pairwise := by decide

/-- **The second function is wanted together with the first**, although it is not copied. -/
theorem wants_sameLine :
    (∀ b ∈ [sameLine], b.check = .ok ()) ∧ ∃ g, (ofBatches [sameLine]).result = .ok g
    ∧ ∃ id n, g.node? id = some n ∧ id ∉ (g.select firstOnLine).seen
      ∧ (g.select firstOnLine).wants n.position = true := by
  have hexported : sameLine.Exported := by decide
  obtain ⟨g, hg, hnodes, hlookup⟩ := hexported.exists_graph
  have hleast := (wellFormed_of_ofBatches hg).isLeast_seen firstOnLine
  have hfirst : g.node? 1 = some (functionOnLine 1 "a") := hnodes 1
  have hsecond : g.node? 2 = some (functionOnLine 2 "b") := hnodes 2
  have hseen : 1 ∈ (g.select firstOnLine).seen := hleast.1.target hfirst (by decide) (by decide)
  have hclosed : g.Closed firstOnLine {id | id ∈ [1]} :=
    hexported.closed hnodes hlookup (by decide)
  have hunseen : 2 ∉ (g.select firstOnLine).seen := fun hcopied ↦
    absurd (hleast.2 hclosed hcopied) (by decide : 2 ∉ [1])
  exact ⟨by decide, g, hg, 2, _, hsecond, hunseen, wants_iff.mpr ⟨1, hseen, _, hfirst, rfl⟩⟩

end UseGraph

end DeclExtract
