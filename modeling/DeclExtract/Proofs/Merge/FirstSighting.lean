import DeclExtract.Proofs.Merge.Anonymous

/-!
# Declarations in the order of their first sightings

The slot that represents a class is the smallest of it, and it was made for the first sighting of
the declaration (`Runs.exists_isFirst`). New sightings are given ascending slots, and the graph
numbers the representatives in ascending order. So the declarations of a finished graph come in the
order in which they were first seen (`Runs.lt_iff_of_isFirst`), whatever was joined in between, and
each of them is called what it was called then.

No identity gets lost on the way. A declaration shows a path if any of its sightings did, and the
path is one of theirs; the same holds of positions with a column (`ShowsSightings`). That sightings
are the only source of what is shown, and that every identity of a sighting is known under its
class, is what `Reflects` says, so batches with ordinals are left out there.
-/

namespace DeclExtract

namespace Merger

variable {m : Merger} {n : Node} {past : List Sighting} {x y : Sighting} {steps : List Step}
variable {i : Identity} {id id' place place' : Nat}

/-! ### First sightings -/

/-- **The first sighting of a declaration**, by its place among all sightings. -/
structure IsFirst (m : Merger) (past : List Sighting) (id place : Nat) (x : Sighting) : Prop where
  getElem?_eq : past[place]? = some x
  hasNumber : m.HasNumber x.slot id
  /-- No sighting before it was recognised as the declaration. -/
  not_hasNumber : ∀ {earlier y}, earlier < place → past[earlier]? = some y → ¬ m.HasNumber y.slot id

/-- A declaration has one first sighting at most. -/
theorem IsFirst.unique (h : m.IsFirst past id place x) (h' : m.IsFirst past id place' y) :
    place = place' ∧ x = y := by
  obtain hlt | rfl | hlt := Nat.lt_trichotomy place place'
  · exact absurd h.hasNumber (h'.not_hasNumber hlt h.getElem?_eq)
  · exact ⟨rfl, Option.some.inj (h.getElem?_eq.symm.trans h'.getElem?_eq)⟩
  · exact absurd h'.hasNumber (h.not_hasNumber hlt h'.getElem?_eq)

namespace Runs

variable (run : empty.Runs steps m)

include run

/-- **Every declaration but the root of the graph has a first sighting.** It was new, the slot that
was made for it represents the class, and the declaration says what it said. -/
theorem exists_isFirst (hn : m.graph.node? id = some n) (hid : id ≠ 0) :
    ∃ place x, m.IsFirst (steps.flatMap Step.sightings) id place x ∧ x.recognition = .fresh
      ∧ m.forest.representatives[id]? = some x.slot ∧ n.Alike x.node := by
  have hm := run.wellFormed wellFormed_empty
  obtain ⟨rep, hlt, hself, rfl, rfl⟩ := hm.exists_representative hn
  have hnumber := hm.hasNumber hlt
  have hmem : rep ∈ m.forest.representatives :=
    Forest.mem_representatives.mpr ⟨hm.size_forest ▸ hlt, hself⟩
  obtain ⟨before, x, after, hsplit, hfirst, hfresh, rfl, -⟩ :=
    run.exists_first hmem fun hzero ↦ hid (hzero ▸ hm.rank_zero)
  have hx : x ∈ steps.flatMap Step.sightings := hsplit ▸ List.mem_append_right _ List.mem_cons_self
  have halike := run.alike_of_fresh hx hfresh hself
  refine ⟨before.length, x, ⟨?_, hnumber, fun {earlier y} hearlier hy hold ↦ ?_⟩, hfresh,
    hnumber.2.trans (congrArg some hself), (m.agrees_declaration _).toAlike.trans halike⟩
  · rw [hsplit, List.getElem?_append_right (Nat.le_refl _), Nat.sub_self, List.getElem?_cons_zero]
  · rw [hsplit, List.getElem?_append_left hearlier] at hy
    exact hfirst y (List.mem_of_getElem? hy) ((hold.find_eq hnumber).trans hself)

/-- **Declarations are numbered in the order of their first sightings.** -/
theorem lt_iff_of_isFirst (hid : id ≠ 0) (hid' : id' ≠ 0)
    (h : m.IsFirst (steps.flatMap Step.sightings) id place x)
    (h' : m.IsFirst (steps.flatMap Step.sightings) id' place' y) : id < id' ↔ place < place' := by
  have hm := run.wellFormed wellFormed_empty
  have hascending := List.pairwise_iff_getElem.mp run.originates.ascending
  have hfresh {id place : Nat} {x : Sighting} (hid : id ≠ 0)
      (h : m.IsFirst (steps.flatMap Step.sightings) id place x) :
      x.recognition = .fresh ∧ m.forest.representatives[id]? = some x.slot := by
    have hnode : m.graph.node? id = some (m.declaration (m.forest.find x.slot)) := by
      rw [hm.node?_graph, h.hasNumber.2, Option.map_some]
    obtain ⟨place', y, hfirst, hfresh, hrep, -⟩ := run.exists_isFirst hnode hid
    rw [(h.unique hfirst).2]
    exact ⟨hfresh, hrep⟩
  -- the later of two first sightings was given a later slot, since it was new
  have hslots {id id' place place' : Nat} {x y : Sighting} (hid : id ≠ 0) (hid' : id' ≠ 0)
      (h : m.IsFirst (steps.flatMap Step.sightings) id place x)
      (h' : m.IsFirst (steps.flatMap Step.sightings) id' place' y) (hlt : place < place') :
      id < id' := by
    obtain ⟨-, hrep⟩ := hfresh hid h
    obtain ⟨hnew, hrep'⟩ := hfresh hid' h'
    obtain ⟨hplace, rfl⟩ := List.getElem?_eq_some_iff.mp h.getElem?_eq
    obtain ⟨hplace', rfl⟩ := List.getElem?_eq_some_iff.mp h'.getElem?_eq
    exact Forest.lt_of_getElem?_representatives hrep hrep'
      (hascending place place' hplace hplace' hlt hnew)
  refine ⟨fun hlt ↦ ?_, hslots hid hid' h h'⟩
  obtain hplace | rfl | hplace := Nat.lt_trichotomy place place'
  · exact hplace
  · -- one sighting has one number
    obtain rfl : x = y := Option.some.inj (h.getElem?_eq.symm.trans h'.getElem?_eq)
    have hsame := Option.some.inj (h.hasNumber.1.symm.trans h'.hasNumber.1)
    omega
  · have hreverse := hslots hid' hid h' h hplace
    omega

end Runs

/-! ### What declarations show -/

/-- **What a declaration shows was shown by its sightings**, and it shows something of each sort if
one of them did. -/
structure ShowsSightings (m : Merger) (past : List Sighting) (id : Nat) (n : Node) : Prop where
  path_iff : n.stablePath.isSome = true ↔
    ∃ x ∈ past, m.HasNumber x.slot id ∧ x.node.stablePath.isSome = true
  exists_path :
    ∀ p, n.path = some p → ∃ x ∈ past, m.HasNumber x.slot id ∧ x.node.stablePath = some p
  column_iff : n.position.hasColumn = true ↔
    ∃ x ∈ past, m.HasNumber x.slot id ∧ x.node.position.hasColumn = true
  exists_position : n.position.hasColumn = true →
    ∃ x ∈ past, m.HasNumber x.slot id ∧ x.node.position = n.position

namespace Runs

variable (run : empty.Runs steps m) (hreflects : m.Reflects (steps.flatMap Step.sightings))

include run hreflects

/-- An identity that a declaration shows was shown by one of its sightings. -/
theorem exists_sighting_of_mem (hn : m.graph.node? id = some n) (hi : i ∈ n.identities) :
    ∃ x ∈ steps.flatMap Step.sightings, m.HasNumber x.slot id ∧ i ∈ x.node.identities := by
  have hm := run.wellFormed wellFormed_empty
  obtain ⟨rep, -, hself, rfl, rfl⟩ := hm.exists_representative hn
  obtain ⟨x, hx, hxi, hclass⟩ := hreflects.exists_of_known (run.recognisable.known_eq hself hi)
  exact ⟨x, hx, (hm.hasNumber_rank_iff (hreflects.slot_lt hx)).mpr (hclass.trans hself.symm), hxi⟩

/-- A declaration shows an identity of each sort that one of its sightings showed. -/
theorem showsLike_of_mem (hn : m.graph.node? id = some n) (hx : x ∈ steps.flatMap Step.sightings)
    (hnumber : m.HasNumber x.slot id) (hi : i ∈ x.node.identities) : n.showsLike i = true := by
  have hm := run.wellFormed wellFormed_empty
  rw [hm.node?_graph, hnumber.2, Option.map_some, Option.some_inj] at hn
  have hshown := run.exhibits i _ (hreflects.known_eq hx hi)
  rw [← hn]
  exact hshown

/-- **No identity gets lost, and none is made up.** -/
theorem showsSightings (hn : m.graph.node? id = some n) :
    m.ShowsSightings (steps.flatMap Step.sightings) id n where
  path_iff := by
    constructor
    · intro hsome
      obtain ⟨p, hp⟩ := Option.isSome_iff_exists.mp hsome
      obtain ⟨x, hx, hnumber, hxi⟩ :=
        run.exists_sighting_of_mem hreflects hn (Node.path_mem_identities.mpr hp)
      exact ⟨x, hx, hnumber, Option.isSome_of_eq_some (Node.path_mem_identities.mp hxi)⟩
    · rintro ⟨x, hx, hnumber, hsome⟩
      obtain ⟨p, hp⟩ := Option.isSome_iff_exists.mp hsome
      exact run.showsLike_of_mem hreflects hn hx hnumber (Node.path_mem_identities.mpr hp)
  exists_path p hp := by
    have hstable : n.stablePath = some p := by
      obtain ⟨rep, -, -, -, rfl⟩ := (run.wellFormed wellFormed_empty).exists_representative hn
      exact (run.recognisable.path_eq rep).symm.trans hp
    obtain ⟨x, hx, hnumber, hxi⟩ :=
      run.exists_sighting_of_mem hreflects hn (Node.path_mem_identities.mpr hstable)
    exact ⟨x, hx, hnumber, Node.path_mem_identities.mp hxi⟩
  column_iff := by
    constructor
    · intro hcolumn
      have hi : .position n.position ∈ n.identities :=
        Node.position_mem_identities_iff.mpr ⟨rfl, hcolumn⟩
      obtain ⟨x, hx, hnumber, hxi⟩ := run.exists_sighting_of_mem hreflects hn hi
      obtain ⟨hposition, -⟩ := Node.position_mem_identities_iff.mp hxi
      exact ⟨x, hx, hnumber, hposition ▸ hcolumn⟩
    · rintro ⟨x, hx, hnumber, hcolumn⟩
      have hi : .position x.node.position ∈ x.node.identities :=
        Node.position_mem_identities_iff.mpr ⟨rfl, hcolumn⟩
      obtain ⟨p, hp⟩ :=
        Option.isSome_iff_exists.mp (run.showsLike_of_mem hreflects hn hx hnumber hi)
      obtain ⟨rfl, hshown⟩ :=
        Node.position_mem_identities_iff.mp (Node.position_mem_identities.mpr hp)
      exact hshown
  exists_position hcolumn := by
    have hi : .position n.position ∈ n.identities :=
      Node.position_mem_identities_iff.mpr ⟨rfl, hcolumn⟩
    obtain ⟨x, hx, hnumber, hxi⟩ := run.exists_sighting_of_mem hreflects hn hi
    exact ⟨x, hx, hnumber, (Node.position_mem_identities_iff.mp hxi).1⟩

end Runs

end Merger

open Merger

/-- **A declaration is its first sighting, with no identity lost.** When accepted batches without
ordinals are merged, their nodes are sighted in the order of the batches, and in each batch in the
order of the nodes. Every node of the graph but the root has a first sighting, with the same name,
kind and visibility, and the nodes are numbered in the order of these. A node shows a path just when
one of its sightings did, and then the path is one of theirs; and likewise a position with a
column. -/
theorem UseGraph.firstSightings_ofBatches {bs : List Batch} (hcheck : ∀ b ∈ bs, b.check = .ok ())
    (hord : ∀ b ∈ bs, ∀ n ∈ b.nodes, n.subgraph = none) : ∃ steps m, steps.map Step.batch = bs
      ∧ Merger.empty.Runs steps m ∧ (UseGraph.ofBatches bs).result = .ok m.graph
      ∧ (steps.flatMap Step.sightings).map Sighting.node = bs.flatMap Batch.nodes
      ∧ (∀ s ∈ steps, ∀ x ∈ s.sightings, s.merged.slotOf x.node.id = x.slot)
      ∧ (∀ id n, m.graph.node? id = some n → m.ShowsSightings (steps.flatMap Step.sightings) id n
        ∧ (id ≠ 0 → ∃ place x, m.IsFirst (steps.flatMap Step.sightings) id place x
          ∧ n.Alike x.node))
      ∧ ∀ id id' place place' x y, id ≠ 0 → id' ≠ 0 →
        m.IsFirst (steps.flatMap Step.sightings) id place x →
        m.IsFirst (steps.flatMap Step.sightings) id' place' y → (id < id' ↔ place < place') := by
  obtain ⟨steps, m, rfl, run, hgraph⟩ := UseGraph.exists_run_ofBatches hcheck
  have hreflects : m.Reflects (steps.flatMap Step.sightings) :=
    run.reflects reflects_empty wellFormed_empty fun s hs ↦ hord _ (List.mem_map_of_mem hs)
  refine ⟨steps, m, rfl, run, hgraph, map_node_flatMap_sightings steps, fun s hs x hx ↦ ?_,
    fun id n hn ↦ ⟨run.showsSightings hreflects hn, fun hid ↦ ?_⟩,
    fun _ _ _ _ _ _ hid hid' h h' ↦ run.lt_iff_of_isFirst hid hid' h h'⟩
  · obtain ⟨-, hb, hmerged, -⟩ := run.of_mem wellFormed_empty hs
    exact hmerged ▸ slotOf_id hb hx
  · obtain ⟨place, x, hfirst, -, -, halike⟩ := run.exists_isFirst hn hid
    exact ⟨place, x, hfirst, halike⟩

/-- The type of the three batches shows its path and its position, although the first batch knew no
position and the second no path. -/
theorem UseGraph.firstSightings_bridged : (∀ b ∈ bridged, b.check = .ok ())
    ∧ (∀ b ∈ bridged, ∀ n ∈ b.nodes, n.subgraph = none)
    ∧ ∃ g, (UseGraph.ofBatches bridged).result = .ok g
      ∧ ∃ id n, g.node? id = some n ∧ n.stablePath.isSome = true ∧ n.position.hasColumn = true := by
  have hord : ∀ b ∈ bridged, ∀ n ∈ b.nodes, n.subgraph = none := by decide
  obtain ⟨steps, m, hsteps, run, hgraph, hnodes, -, hshows, -⟩ :=
    UseGraph.firstSightings_ofBatches check_bridged hord
  have hm := run.wellFormed wellFormed_empty
  have hboth : ∃ n ∈ bridged.flatMap Batch.nodes, n.stablePath.isSome = true
      ∧ n.position.hasColumn = true := by
    decide
  obtain ⟨n, hn, hpath, hcolumn⟩ := hboth
  rw [← hnodes] at hn
  obtain ⟨x, hx, rfl⟩ := List.mem_map.mp hn
  have hslot := run.originates.slot_lt hx
  have hnode := hm.node?_graph_rank hslot
  obtain ⟨hshown, -⟩ := hshows _ _ hnode
  exact ⟨check_bridged, hord, m.graph, hgraph, _, _, hnode,
    hshown.path_iff.mpr ⟨x, hx, hm.hasNumber hslot, hpath⟩,
    hshown.column_iff.mpr ⟨x, hx, hm.hasNumber hslot, hcolumn⟩⟩

end DeclExtract
