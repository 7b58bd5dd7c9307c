import DeclExtract.Proofs.Merge.Origin
import DeclExtract.Proofs.Merge.Rebuild

/-!
# Which node carries an ordinal

A merger hands out ordinals to declarations without identity, and an ordinal that was handed out
leads back to the one node that it was given to. But a declaration with an identity may bring an
ordinal along: if nobody has the ordinal yet, the declaration is new, and its slot goes on showing
what it brought. When the merger comes to the same ordinal later, two nodes carry it
(`UseGraph.ordinals_misnumbered`), and it leads to the later one of them.

So the node of a clash that comes first has an identity, and its ordinal is one that a batch brought
along (`Merger.OrdinalsPrecede`). Where batches give ordinals to no node with an identity, ordinals
are unique.
-/

namespace DeclExtract

namespace Merger

variable {m : Merger} {n : Node} {steps : List Step} {id id' o rep slot : Nat}

/-! ### What shows an ordinal before it was handed out -/

/-- **A slot that shows an ordinal came no later than the slot that the ordinal was given to.** -/
def OrdinalsPrecede (m : Merger) : Prop :=
  ∀ s o root, (m.node s).subgraph = some o → m.anonymousRoots[o]? = some root → s ≤ root

theorem ordinalsPrecede_empty : empty.OrdinalsPrecede := by
  intro s o root ho _
  rw [node_empty] at ho
  split at ho
  next hs =>
    rw [hs]
    exact Nat.zero_le root
  next => cases ho

/-- A slot that is not there shows no ordinal. -/
theorem lt_of_subgraph (ho : (m.node slot).subgraph = some o) : slot < m.slots.size := by
  by_contra hge
  rw [node, Array.getElem?_eq_none (Nat.le_of_not_lt hge)] at ho
  cases ho

namespace OrdinalsPrecede

/-- A new node shows an ordinal that nobody has, or is given the next one. -/
theorem allocate (h : m.OrdinalsPrecede) (hm : m.WellFormed)
    (hunknown : ∀ o, n.subgraph = some o → m.atOrdinal? o = none) :
    (m.allocate n).OrdinalsPrecede := by
  intro s o root ho hroot
  have hordinal : (m.anonymousRoots[o]? = some root)
      ∨ (n.hasIdentity = false ∧ o = m.anonymousRoots.size ∧ root = m.slots.size) :=
      root_extend_iff.mp hroot
  rw [node_allocate hm.slots_pos] at ho
  split at ho
  next hs =>
    rcases hordinal with hold | ⟨-, -, hnew⟩
    · have hshown : (if n.hasIdentity then n.subgraph else some m.anonymousRoots.size) = some o :=
        ho
      split at hshown
      next =>
        have hnone := hunknown o hshown
        rw [atOrdinal?, hold] at hnone
        cases hnone
      next =>
        rw [← Option.some.inj hshown, Array.getElem?_eq_none (Nat.le_refl _)] at hold
        cases hold
    · exact Nat.le_of_eq (hs.trans hnew.symm)
  next =>
    have hshown : (m.node s).subgraph = some o := by
      split at ho
      next hzero => exact hzero.1 ▸ ho
      next => exact ho
    rcases hordinal with hold | ⟨-, -, hnew⟩
    · exact h s o root hshown hold
    · exact hnew ▸ Nat.le_of_lt (lt_of_subgraph hshown)

theorem sighted (h : m.OrdinalsPrecede) (hm : m.WellFormed) (n : Node) :
    (m.sighted n).OrdinalsPrecede := by
  refine hm.settleAs_preserves (m.recognises n) h ?_ ?_ ?_
  · intro a _ ha _ _ s o root ho
    rw [node_register ha] at ho
    split at ho <;> exact h s o root ho
  · intro a b hne ha hb s o root ho
    rw [node_unify hne ha.1 hb.1] at ho
    split at ho
    next hs => exact hs ▸ h _ o root ho
    next =>
      split at ho
      next => cases ho
      next => exact h s o root ho
  · intro hfresh _
    exact h.allocate hm (recognise_eq_fresh_iff.mp hfresh).1

theorem addEdges {uses owns : List Nat} (h : m.OrdinalsPrecede) (hslot : slot < m.slots.size) :
    (m.addEdges slot uses owns).OrdinalsPrecede := by
  intro s o root ho
  rw [node_addEdges (Forest.find_lt hslot)] at ho
  split at ho <;> exact h s o root ho

end OrdinalsPrecede

/-! ### Runs -/

namespace Runs

variable (run : empty.Runs steps m)

include run

theorem ordinalsPrecede : m.OrdinalsPrecede := by
  let P (m : Merger) (_ : List Sighting) : Prop := m.OrdinalsPrecede
  have hstart : P empty [] := ordinalsPrecede_empty
  exact run.preserves wellFormed_empty hstart (fun _ _ hm h ↦ h.sighted hm _) fun _ hslot h ↦
    h.addEdges hslot

/-- **An ordinal that was handed out leads back to the node that has it.** -/
theorem exists_ordinal (hn : m.graph.node? id = some n) (hnone : n.hasIdentity = false) :
    ∃ o, n.subgraph = some o ∧ (m.atOrdinal? o).map m.forest.rank = some id := by
  have hm := run.wellFormed wellFormed_empty
  rw [hm.node?_graph] at hn
  obtain ⟨rep, hrep, rfl⟩ := Option.map_eq_some_iff.mp hn
  have hroot := run.roots_anonymousBefore hrep hnone
  refine ⟨m.graph.anonymousBefore id, run.recognisable.ordinal_eq hroot, ?_⟩
  rw [hm.atOrdinal?_eq, hroot, Option.map_some, Forest.rank_of_getElem?_representatives hrep]

/-- **An ordinal that a declaration with an identity shows was brought along** by the sighting that
was new. -/
theorem exists_brought (hn : m.graph.node? id = some n) (hidentity : n.hasIdentity = true)
    (ho : n.subgraph = some o) : ∃ x ∈ steps.flatMap Step.sightings, x.recognition = .fresh
      ∧ m.HasNumber x.slot id ∧ x.node.hasIdentity = true ∧ x.node.subgraph = some o := by
  have hm := run.wellFormed wellFormed_empty
  rw [hm.node?_graph] at hn
  obtain ⟨rep, hrep, rfl⟩ := Option.map_eq_some_iff.mp hn
  have hmem : rep ∈ m.forest.representatives := List.mem_of_getElem? hrep
  have hroot : rep ∉ m.anonymousRoots := fun hroot ↦ by
    have hshown : (m.node rep).hasIdentity = true := hidentity
    rw [hm.hasIdentity_root run.recognisable hroot] at hshown
    cases hshown
  obtain ⟨before, x, after, hsplit, -, hfresh, rfl, hretains⟩ :=
    run.exists_first hmem fun hzero ↦ hroot (hzero ▸ hm.root_mem)
  obtain ⟨hxi, hkept⟩ := hretains.subgraph_eq hroot
  refine ⟨x, hsplit ▸ List.mem_append_right _ List.mem_cons_self, hfresh, ?_, hxi, hkept ▸ ho⟩
  rw [← Forest.rank_of_getElem?_representatives hrep]
  exact hm.hasNumber (hm.lt_of_mem_representatives hmem)

/-- **Of two nodes with one ordinal the first has an identity.** -/
theorem hasIdentity_of_lt {n' : Node} (hn : m.graph.node? id = some n)
    (hn' : m.graph.node? id' = some n') (ho : n.subgraph = some o) (ho' : n'.subgraph = some o)
    (hlt : id < id') : n.hasIdentity = true := by
  have hm := run.wellFormed wellFormed_empty
  rw [hm.node?_graph] at hn hn'
  obtain ⟨rep, hrep, rfl⟩ := Option.map_eq_some_iff.mp hn
  obtain ⟨rep', hrep', rfl⟩ := Option.map_eq_some_iff.mp hn'
  by_contra hnone
  have hroot := run.roots_anonymousBefore hrep (Bool.eq_false_of_not_eq_true hnone)
  have hshown : (m.node rep).subgraph = some o := ho
  rw [run.recognisable.ordinal_eq hroot, Option.some_inj] at hshown
  -- the later one would have come first
  have hle : rep' ≤ rep := run.ordinalsPrecede rep' o rep ho' (hshown ▸ hroot)
  have hascending : m.forest.representatives.Pairwise (· < ·) := List.pairwise_lt_range.filter _
  obtain ⟨hid, hget⟩ := List.getElem?_eq_some_iff.mp hrep
  obtain ⟨hid', hget'⟩ := List.getElem?_eq_some_iff.mp hrep'
  have hslots := List.pairwise_iff_getElem.mp hascending id id' hid hid' hlt
  rw [hget, hget'] at hslots
  omega

end Runs

end Merger

namespace UseGraph

open Merger

/-- **Which nodes carry one ordinal.** When accepted batches are merged, whatever ordinals their
nodes carry, a node without identity carries an ordinal that leads back to it. A node with an
identity carries an ordinal only if the sighting that was new brought it along. Of two nodes that
carry one ordinal the first has an identity; so ordinals are unique if no node of a batch that has
an identity carries one. -/
theorem ordinals_ofBatches {bs : List Batch} (hcheck : ∀ b ∈ bs, b.check = .ok ()) : ∃ steps m,
    steps.map Step.batch = bs ∧ Merger.empty.Runs steps m ∧ (ofBatches bs).result = .ok m.graph
      ∧ (∀ id n, m.graph.node? id = some n → n.hasIdentity = false →
        ∃ o, n.subgraph = some o ∧ (m.atOrdinal? o).map m.forest.rank = some id)
      ∧ (∀ id n o, m.graph.node? id = some n → n.hasIdentity = true → n.subgraph = some o →
        ∃ x ∈ steps.flatMap Step.sightings, x.recognition = .fresh ∧ m.HasNumber x.slot id
          ∧ x.node.hasIdentity = true ∧ x.node.subgraph = some o)
      ∧ (∀ id id' n n' o, m.graph.node? id = some n → m.graph.node? id' = some n' →
        n.subgraph = some o → n'.subgraph = some o → id < id' → n.hasIdentity = true)
      ∧ ((∀ b ∈ bs, ∀ n ∈ b.nodes, n.hasIdentity = true → n.subgraph = none) →
        ∀ id id' n n' o, m.graph.node? id = some n → m.graph.node? id' = some n' →
        n.subgraph = some o →
          n'.subgraph = some o → id = id') := by
  obtain ⟨steps, m, rfl, run, hgraph⟩ := exists_run_ofBatches hcheck
  refine ⟨steps, m, rfl, run, hgraph, fun id n ↦ run.exists_ordinal,
    fun id n o ↦ run.exists_brought, fun id id' n n' o ↦ run.hasIdentity_of_lt,
    fun hnone id id' n n' o hn hn' ho ho' ↦ ?_⟩
  -- the one that comes first would have brought its ordinal along
  have hbrought {id : Nat} {n : Node} (hn : m.graph.node? id = some n) (ho : n.subgraph = some o) :
      ¬ n.hasIdentity = true := by
    intro hidentity
    obtain ⟨x, hx, -, -, hxi, hxo⟩ := run.exists_brought hn hidentity ho
    obtain ⟨s, hs, hxs⟩ := List.mem_flatMap.mp hx
    rw [hnone s.batch (List.mem_map_of_mem hs) x.node (node_mem_of_mem_sightings hxs) hxi] at hxo
    cases hxo
  rcases Nat.lt_trichotomy id id' with hlt | heq | hlt
  · exact absurd (run.hasIdentity_of_lt hn hn' ho ho' hlt) (hbrought hn ho)
  · exact heq
  · exact absurd (run.hasIdentity_of_lt hn' hn ho' ho hlt) (hbrought hn' ho')

/-- Two batches with one root. It has no identity, so the second batch refers to it by the ordinal
that the merge of the first one gave it. -/
def numbered : List Batch :=
  let path (object : String) : Option ObjectPath := some ⟨"pkg", object⟩
  let root := { Node.root with uses := [1] }
  [⟨[root, { id := 1, name := "f", exported := false, kind := .function, path := path "f" }]⟩,
    ⟨[{ root with subgraph := some 1 },
      { id := 1, name := "h", exported := false, kind := .function, path := path "h" }]⟩]

theorem check_numbered : ∀ b ∈ numbered, b.check = .ok () := by
  decide

/-- No node of the two batches that has an identity carries an ordinal, although their root does. So
the ordinals of their graph are unique. -/
theorem ordinals_numbered : (∀ b ∈ numbered, b.check = .ok ())
    ∧ (∃ b ∈ numbered, ∃ n ∈ b.nodes, n.hasIdentity = false ∧ n.subgraph = some 1)
    ∧ (∀ b ∈ numbered, ∀ n ∈ b.nodes, n.hasIdentity = true → n.subgraph = none)
    ∧ ∃ steps m, steps.map Step.batch = numbered ∧ Merger.empty.Runs steps m
      ∧ (ofBatches numbered).result = .ok m.graph
      ∧ (∀ id n, m.graph.node? id = some n → n.hasIdentity = false →
        ∃ o, n.subgraph = some o ∧ (m.atOrdinal? o).map m.forest.rank = some id)
      ∧ (∀ id n o, m.graph.node? id = some n → n.hasIdentity = true → n.subgraph = some o →
        ∃ x ∈ steps.flatMap Step.sightings, x.recognition = .fresh ∧ m.HasNumber x.slot id
          ∧ x.node.hasIdentity = true ∧ x.node.subgraph = some o)
      ∧ (∀ id id' n n' o, m.graph.node? id = some n → m.graph.node? id' = some n' →
        n.subgraph = some o → n'.subgraph = some o → id < id' → n.hasIdentity = true)
      ∧ ∀ id id' n n' o, m.graph.node? id = some n → m.graph.node? id' = some n' →
      n.subgraph = some o →
        n'.subgraph = some o → id = id' := by
  have hnone : ∀ b ∈ numbered, ∀ n ∈ b.nodes, n.hasIdentity = true → n.subgraph = none := by decide
  obtain ⟨steps, m, hsteps, run, hgraph, hordinal, hbrought, hfirst, hunique⟩ :=
    ordinals_ofBatches check_numbered
  exact ⟨check_numbered, by decide, hnone, steps, m, hsteps, run, hgraph, hordinal, hbrought,
    hfirst, hunique hnone⟩

/-! ### An ordinal that two nodes carry -/

/-- A function that brings along an ordinal, which will be the next one when the function is met. -/
def misnumberedFunction : Node where
  id := 1
  name := "f"
  exported := false
  kind := .function
  path := some ⟨"pkg", "f"⟩
  subgraph := some 2

/-- Two batches whose roots have no identity. The function is in the first of them. -/
def misnumbered : List Batch :=
  [⟨[Node.root, misnumberedFunction]⟩, ⟨[Node.root]⟩]

/-- The ordinals of the batches lead to the root of the graph and to their own roots. -/
theorem exists_run_misnumbered :
    ∃ steps m, steps.map Step.batch = misnumbered ∧ Merger.empty.Runs steps m
    ∧ m.anonymousRoots = #[0, 1, 3] ∧ m.slots.size = 4 ∧ m.forest.find 2 = 2 := by
  -- a root without identity is always new
  have hroot (m : Merger) : m.recognise Node.root = .fresh :=
    (m.recognise_anonymous_iff rfl).mpr fun o ho ↦ nomatch ho
  have hfunction : (Merger.empty.allocate Node.root).recognise misnumberedFunction = .fresh := by
    refine recognise_eq_fresh_iff.mpr ⟨fun o ho ↦ ?_, List.filterMap_eq_nil_iff.mpr fun i hi ↦ ?_⟩
    · obtain rfl : 2 = o := Option.some.inj ho
      rfl
    · rw [known?_eq_none_iff, indexed?_allocate, indexed?_empty, Option.none_or, if_neg]
      exact List.not_mem_nil
  have hfirst : [Node.root, misnumberedFunction].foldl sighted Merger.empty
      = (Merger.empty.allocate Node.root).allocate misnumberedFunction := by
    rw [List.foldl_cons, List.foldl_cons, List.foldl_nil, sighted_of_fresh (hroot _),
      sighted_of_fresh hfunction]
  have hsecond (m : Merger) : [Node.root].foldl sighted m = m.allocate Node.root := by
    rw [List.foldl_cons, List.foldl_nil, sighted_of_fresh (hroot m)]
  let first := Merger.empty.mergeSound ⟨[Node.root, misnumberedFunction]⟩
  have run : Merger.empty.Runs [⟨_, _, first⟩, ⟨_, _, first.merger.mergeSound ⟨[Node.root]⟩⟩] _ :=
    .cons (merge_eq_ok_iff.mpr ⟨Batch.check_eq_ok_iff.mp (by decide), rfl⟩)
      (.cons (merge_eq_ok_iff.mpr ⟨Batch.check_eq_ok_iff.mp (by decide), rfl⟩) (.nil _))
  have hmerger : first.merger = _ := merger_mergeSound _ _
  refine ⟨_, _, rfl, run, ?_, ?_, ?_⟩
  · rw [merger_mergeSound, anonymousRoots_connectAll, hsecond, anonymousRoots_allocate, hmerger,
      anonymousRoots_connectAll, size_slots_connectAll, hfirst]
    rfl
  · rw [merger_mergeSound, size_slots_connectAll, hsecond, size_slots_allocate, hmerger,
      size_slots_connectAll, hfirst]
    rfl
  · rw [merger_mergeSound, forest_connectAll, hsecond, forest_allocate, Forest.find_grow, hmerger,
      forest_connectAll, hfirst, forest_allocate, Forest.find_grow, forest_allocate,
      Forest.find_grow]
    exact Forest.find_of_size_le (Nat.le_succ 1)

/-- **The function keeps the ordinal that the second root is given.** -/
theorem ordinals_misnumbered : (∀ b ∈ misnumbered, b.check = .ok ())
    ∧ ∃ g id id' n n', (ofBatches misnumbered).result = .ok g
      ∧ g.node? id = some n ∧ g.node? id' = some n'
      ∧ n.subgraph = some 2 ∧ n'.subgraph = some 2 ∧ id ≠ id' := by
  obtain ⟨steps, m, hsteps, run, hroots, hsize, hself⟩ := exists_run_misnumbered
  have hm := run.wellFormed wellFormed_empty
  have hfunction : 2 < m.slots.size := by omega
  have hroot : 3 < m.slots.size := by omega
  have hordinal : m.anonymousRoots[2]? = some 3 := by rw [hroots]; rfl
  obtain ⟨x, hx, -, -, hretains⟩ := run.originates.exists_origin hfunction hself (by decide)
  obtain ⟨hidentity, hkept⟩ := hretains.subgraph_eq (by simp [hroots])
  -- no other node of the batches has an identity
  have hbrought : x.node.subgraph = some 2 := by
    have hnodes : ∀ n ∈ misnumbered.flatMap Batch.nodes, n.hasIdentity = true →
      n.subgraph = some 2 := by decide
    refine hnodes x.node ?_ hidentity
    rw [← hsteps, ← map_node_flatMap_sightings]
    exact List.mem_map_of_mem hx
  have hgraph := ofBatches_eq_ok_iff.mpr ⟨steps, m, hsteps, run, rfl⟩
  refine ⟨by decide, m.graph, m.forest.rank 2, m.forest.rank 3, _, _, hgraph,
    hm.node?_graph_rank hfunction, hm.node?_graph_rank hroot, ?_, ?_, ?_⟩
  · show (m.node (m.forest.find 2)).subgraph = some 2
    rw [hself, hkept, hbrought]
  · show (m.node (m.forest.find 3)).subgraph = some 2
    rw [hm.find_root (Array.mem_of_getElem? hordinal), run.recognisable.ordinal_eq hordinal]
  · rw [ne_eq, hm.rank_inj hfunction, hself, hm.find_root (Array.mem_of_getElem? hordinal)]
    decide

end UseGraph

end DeclExtract
