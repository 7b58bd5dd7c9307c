import DeclExtract.Proofs.Merge.Components
import DeclExtract.Proofs.Merge.Contents

/-!
# Named types in a finished graph

The named type of a declaration decides which methods travel with it, so it matters whether a merge
keeps it. A merge keeps it when the sighting that carries it is new, or is recognised by its path
alone or by its position alone; and every named type of the graph comes from such a sighting
(`UseGraph.namedType_ofBatches`).

A sighting whose path and whose position have both been seen before (`recognise_eq_both`) is not
asked for its named type. If no other sighting knows the type, the graph does not
(`UseGraph.namedType_lost`).
-/

namespace DeclExtract

namespace Merger

variable {m : Merger} {n : Node} {past : List Sighting} {x y : Sighting}

/-- **A node is recognised by path and position when earlier sightings carried both.** -/
theorem Reflects.recognise_eq_both (h : m.Reflects past) (hord : n.subgraph = none) (hx : x ∈ past)
    (hy : y ∈ past) {p : ObjectPath} {q : Position} (hp : n.stablePath = some p)
    (hq : n.stablePosition = some q) (hxp : .path p ∈ x.node.identities)
    (hyq : .position q ∈ y.node.identities) :
    m.recognise n = .both (m.forest.find x.slot) (m.forest.find y.slot) := by
  have hpath : m.atPath? p = some (m.forest.find x.slot) := h.known_eq hx hxp
  have hposition : m.atPosition? q = some (m.forest.find y.slot) := h.known_eq hy hyq
  rw [recognise, hord, hp, hq]
  simp [hpath, hposition]

/-- **A sighting completes nothing when both of its identities have been seen before.** -/
theorem Runs.completes_eq_false {steps : List Step} (run : empty.Runs steps m)
    (hord : ∀ s ∈ steps, ∀ n ∈ s.batch.nodes, n.subgraph = none) {before after : List Sighting}
    (hsplit : steps.flatMap Step.sightings = before ++ x :: after) {p : ObjectPath} {q : Position}
    (hp : x.node.stablePath = some p) (hq : x.node.stablePosition = some q)
    (hpath : ∃ y ∈ before, .path p ∈ y.node.identities)
    (hposition : ∃ y ∈ before, .position q ∈ y.node.identities) : x.completes = false := by
  obtain ⟨m₀, -, hreflects, hsighting⟩ := run.exists_before wellFormed_empty reflects_empty
    (fun hs hn hm h ↦ h.append_sighted hm (hord _ hs _ hn)) (fun _ _ h ↦ h.addEdges) hsplit
  have hnone : x.node.subgraph = none := by
    have hx : x ∈ steps.flatMap Step.sightings :=
      hsplit ▸ List.mem_append_right _ List.mem_cons_self
    obtain ⟨s, hs, hxs⟩ := List.mem_flatMap.mp hx
    exact hord s hs x.node (node_mem_of_mem_sightings hxs)
  obtain ⟨y, hy, hyp⟩ := hpath
  obtain ⟨z, hz, hzq⟩ := hposition
  have hrecognised := hreflects.recognise_eq_both hnone hy hz hp hq hyp hzq
  rw [← hsighting, Sighting.completes, sighting, hrecognised]
  rfl

/-- A declaration has no named type if nothing that completed it has one. -/
theorem Describes.namedType_eq_none {rep : Nat} (h : m.Describes past)
    (hrep : m.forest.find rep = rep)
    (hnone : ∀ y ∈ past, y.completes = true → m.forest.find y.slot = rep →
      y.node.namedType = none) :
    (m.node rep).namedType = none := by
  by_contra hsome
  obtain ⟨type, htype⟩ := Option.ne_none_iff_exists'.mp hsome
  obtain ⟨y, hy, hcompletes, hfind, htypey⟩ := h.exists_type hrep htype
  rw [hnone y hy hcompletes hfind] at htypey
  cases htypey

end Merger

namespace UseGraph

/-- **Which named types a merge keeps.** When accepted batches are merged one after the other, every
sighting was recognised as a node of the graph. If the sighting completed its declaration and has a
named type, the node has one; and whenever the node has a named type, it is that of a sighting which
completed the same declaration. -/
theorem namedType_ofBatches {bs : List Batch} (h : ∀ b ∈ bs, b.check = .ok ()) :
    ∃ steps m, steps.map Step.batch = bs ∧ Merger.empty.Runs steps m
      ∧ (UseGraph.ofBatches bs).result = .ok m.graph
      ∧ ∀ s ∈ steps, ∀ x ∈ s.sightings, ∃ id n, s.merged.slotOf x.node.id = x.slot
        ∧ m.HasNumber x.slot id ∧ m.graph.node? id = some n
        ∧ (x.completes = true → x.node.namedType ≠ none → n.namedType ≠ none)
        ∧ ∀ type, n.namedType = some type → ∃ s' ∈ steps, ∃ y ∈ s'.sightings,
          y.completes = true ∧ m.HasNumber y.slot id ∧ y.node.namedType = some type := by
  obtain ⟨steps, m, hsteps, run, hgraph⟩ := UseGraph.exists_run_ofBatches h
  have hm := run.wellFormed Merger.wellFormed_empty
  have hdescribes : m.Describes (steps.flatMap Step.sightings) :=
    run.describes Merger.wellFormed_empty Merger.describes_empty
  refine ⟨steps, m, hsteps, run, hgraph, fun s hs x hx ↦ ?_⟩
  have hpast : x ∈ steps.flatMap Step.sightings := List.mem_flatMap.mpr ⟨s, hs, hx⟩
  have hslot := hdescribes.slot_lt hpast
  obtain ⟨hbefore, hbatch, hmerged, -⟩ := run.of_mem Merger.wellFormed_empty hs
  refine ⟨m.forest.rank x.slot, m.declaration (m.forest.find x.slot), ?_, hm.hasNumber hslot,
    hm.node?_graph_rank hslot, fun hcompletes htype ↦ ?_, fun type htype ↦ ?_⟩
  · rw [hmerged]
    exact Merger.slotOf_id hbatch hx
  · have hkept := hdescribes.type_isSome hpast hcompletes (Option.isSome_iff_ne_none.mpr htype)
    exact Option.isSome_iff_ne_none.mp hkept
  · obtain ⟨y, hy, hcompletes, hfind, htypey⟩ := hdescribes.exists_type (m.forest.find_find _) htype
    obtain ⟨s', hs', hys'⟩ := List.mem_flatMap.mp hy
    have hrank : m.forest.rank y.slot = m.forest.rank x.slot := by
      rw [← m.forest.rank_find y.slot, hfind, m.forest.rank_find]
    exact ⟨s', hs', y, hys', hcompletes, hrank ▸ hm.hasNumber (hdescribes.slot_lt hy), htypey⟩

/-! ### A type that is lost -/

/-- A variable as it is shown without its named type: by its path and by its position. -/
def untyped : Node where
  id := 1
  name := "v"
  exported := false
  kind := .var
  path := some ⟨"pkg", "v"⟩
  position := { file := "v.go", line := 1, column := some 5 }

/-- The variable with its named type, whose one method is declared elsewhere. -/
def typed : Node :=
  { untyped with namedType := some ⟨"T",
    [.position { file := "v.go", line := 3, column := some 6 }]⟩ }

/-- A batch that shows the variable and the method. -/
def shownUntyped : Batch :=
  ⟨[Node.root, untyped,
    { id := 2, name := "M", exported := true, kind := .method,
      position := { file := "v.go", line := 3, column := some 6 } }]⟩

/-- The same batch, and a later one that knows how the variable and the method belong together. -/
def shownTwice : List Batch :=
  [shownUntyped, ⟨[Node.root, typed]⟩]

theorem check_shownTwice : ∀ b ∈ shownTwice, b.check = .ok () := by
  decide

theorem subgraph_shownTwice : ∀ b ∈ shownTwice, ∀ n ∈ b.nodes, n.subgraph = none := by
  decide

/-- In the graph of the two batches a named type is that of a sighting, as in any graph. -/
theorem namedType_shownTwice : (∀ b ∈ shownTwice, b.check = .ok ())
    ∧ ∃ steps m, steps.map Step.batch = shownTwice ∧ Merger.empty.Runs steps m
      ∧ (UseGraph.ofBatches shownTwice).result = .ok m.graph
      ∧ ∀ s ∈ steps, ∀ x ∈ s.sightings, ∃ id n, s.merged.slotOf x.node.id = x.slot
        ∧ m.HasNumber x.slot id ∧ m.graph.node? id = some n
        ∧ (x.completes = true → x.node.namedType ≠ none → n.namedType ≠ none)
        ∧ ∀ type, n.namedType = some type → ∃ s' ∈ steps, ∃ y ∈ s'.sightings,
          y.completes = true ∧ m.HasNumber y.slot id ∧ y.node.namedType = some type :=
  ⟨check_shownTwice, namedType_ofBatches check_shownTwice⟩

/-- The typed variable is sighted last, and completes nothing. -/
theorem sightings_shownTwice {steps : List Step} {m : Merger} (run : Merger.empty.Runs steps m)
    (hsteps : steps.map Step.batch = shownTwice) :
    ∃ before x, steps.flatMap Step.sightings = before ++ [x] ∧ x.node = typed ∧ x.completes = false
      ∧ ∀ y ∈ before, y.node.namedType = none := by
  have hnodes : (steps.flatMap Step.sightings).map Sighting.node
      = (shownUntyped.nodes ++ [Node.root]) ++ [typed] := by
    rw [map_node_flatMap_sightings, hsteps]
    rfl
  obtain ⟨before, after, hsightings, hbefore, hafter⟩ := List.map_eq_append_iff.mp hnodes
  obtain ⟨x, rfl, hx⟩ := List.map_eq_singleton_iff.mp hafter
  have hord : ∀ s ∈ steps, ∀ n ∈ s.batch.nodes, n.subgraph = none := fun s hs ↦
    subgraph_shownTwice _ (hsteps ▸ List.mem_map_of_mem hs)
  -- an earlier sighting carried both identities of the variable
  obtain ⟨y, hy, hshown⟩ : ∃ y ∈ before, y.node = untyped := by
    rw [← List.mem_map, hbefore]
    decide
  have hpath : x.node.stablePath = some ⟨"pkg", "v"⟩ := hx ▸ rfl
  have hposition : x.node.stablePosition = some { file := "v.go", line := 1, column := some 5 } :=
    hx ▸ rfl
  refine ⟨before, x, hsightings, hx, ?_, fun z hz ↦ ?_⟩
  · exact run.completes_eq_false hord hsightings hpath hposition ⟨y, hy, hshown ▸ by decide⟩
      ⟨y, hy, hshown ▸ by decide⟩
  · have huntyped : ∀ k ∈ shownUntyped.nodes ++ [Node.root], k.namedType = none := by decide
    exact huntyped _ (hbefore ▸ List.mem_map_of_mem hz)

/-- **The named type of the variable is lost**: the batch that carries it shows the path and the
position of the variable, and both had been seen before. -/
theorem namedType_lost : (∀ b ∈ shownTwice, b.check = .ok ())
    ∧ (∀ b ∈ shownTwice, ∀ n ∈ b.nodes, n.subgraph = none)
    ∧ ∃ steps m, steps.map Step.batch = shownTwice ∧ Merger.empty.Runs steps m
      ∧ (UseGraph.ofBatches shownTwice).result = .ok m.graph
      ∧ ∃ s ∈ steps, ∃ k ∈ s.batch.nodes, k.namedType ≠ none ∧ ∃ id n,
        m.HasNumber (s.merged.slotOf k.id) id ∧ m.graph.node? id = some n ∧ n.namedType = none := by
  obtain ⟨steps, m, hsteps, run, hgraph⟩ := UseGraph.exists_run_ofBatches check_shownTwice
  have hm := run.wellFormed Merger.wellFormed_empty
  have hdescribes : m.Describes (steps.flatMap Step.sightings) :=
    run.describes Merger.wellFormed_empty Merger.describes_empty
  obtain ⟨before, x, hsightings, hx, hpassed, hbefore⟩ := sightings_shownTwice run hsteps
  have hxmem : x ∈ steps.flatMap Step.sightings :=
    hsightings ▸ List.mem_append_right _ List.mem_cons_self
  obtain ⟨s, hs, hxs⟩ := List.mem_flatMap.mp hxmem
  obtain ⟨-, hbatch, hmerged, -⟩ := run.of_mem Merger.wellFormed_empty hs
  have hslot : s.merged.slotOf x.node.id = x.slot := hmerged ▸ Merger.slotOf_id hbatch hxs
  refine ⟨check_shownTwice, subgraph_shownTwice, steps, m, hsteps, run, hgraph, s, hs, x.node,
    Merger.node_mem_of_mem_sightings hxs, by rw [hx]; decide, m.forest.rank x.slot, _, ?_,
    hm.node?_graph_rank (hdescribes.slot_lt hxmem), ?_⟩
  · rw [hslot]
    exact hm.hasNumber (hdescribes.slot_lt hxmem)
  · refine hdescribes.namedType_eq_none (m.forest.find_find x.slot) fun y hy hcompletes _ ↦ ?_
    rw [hsightings, List.mem_append, List.mem_singleton] at hy
    rcases hy with hy | rfl
    · exact hbefore y hy
    · rw [hpassed] at hcompletes
      cases hcompletes

end UseGraph

end DeclExtract
