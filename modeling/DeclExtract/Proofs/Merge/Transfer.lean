import DeclExtract.Proofs.Merge.Ordinals

/-!
# Merging a graph into a merger that has seen other batches

A declaration without identity is known by its ordinal, and the ordinals of a merger are the numbers
below the number of such declarations. A graph that was taken from one merger can be merged into
another one, which has handed out ordinals of its own. They start from the same number, so they are
bound to meet:

* a node of the graph whose ordinal the merger has handed out already is recognised as the root of
  that ordinal, whatever the two have to do with each other;
* the ordinals of the other nodes are the next ones, so each of these nodes is new and is given its
  own ordinal again (`WellFormed.sighted_node`).

The merger ends with as many declarations without identity as the larger one of the two had
(`Runs.anonymousCount_merged`), and a root of the merger gains the edges of the node with its
ordinal (`node_merged_of_atOrdinal?`). No node with an identity is taken for one of these
declarations. So two roots that have nothing in common but their place in their runs are taken for
one (`anonymousCount_rootOf_ne`).
-/

namespace DeclExtract

/-- The number of nodes without identity. -/
def UseGraph.anonymousCount (g : UseGraph) : Nat :=
  g.nodes.toList.countP fun n ↦ !n.hasIdentity

theorem UseGraph.anonymousBefore_size (g : UseGraph) :
    g.anonymousBefore g.size = g.anonymousCount := by
  have hall : g.nodes.toList.take g.size = g.nodes.toList :=
    List.take_of_length_le (Nat.le_of_eq Array.length_toList)
  rw [anonymousBefore, hall, anonymousCount]

/-- The root of a graph that can be rebuilt shows the first ordinal. -/
theorem UseGraph.Rebuildable.subgraph_of_id_eq_zero {g : UseGraph} (hg : g.Rebuildable) {n : Node}
    (hn : g.node? n.id = some n) (hzero : n.id = 0) : n.subgraph = some 0 := by
  obtain ⟨root, hfirst, hunlinked⟩ := hg.exists_root
  obtain rfl : root = n := Option.some.inj (hfirst.symm.trans (hzero ▸ hn))
  exact show root.unlinked.subgraph = some 0 from hunlinked ▸ rfl

namespace Merger

variable {k l m : Merger} {g : UseGraph} {past : List Sighting} {steps : List Step} {n : Node}
variable {o slot : Nat}

/-! ### Ordinals -/

/-- A slot that was there before has the ordinal that it had. -/
theorem root_sighted_iff (hslot : slot < m.slots.size) (n : Node) :
    (m.sighted n).anonymousRoots[o]? = some slot ↔ m.anonymousRoots[o]? = some slot := by
  rcases m.anonymousRoots_settleAs n (m.recognise n) with hroots | hroots
  · rw [sighted, hroots]
  · rw [sighted, hroots, Array.getElem?_push]
    split
    next ho =>
      -- the new ordinal is that of a new slot
      rw [ho, Array.getElem?_eq_none (Nat.le_refl _), Option.some_inj]
      exact ⟨fun hnew ↦ absurd hnew (Nat.ne_of_gt hslot), fun hnone ↦ by cases hnone⟩
    next => exact Iff.rfl

/-- The anonymous roots of a run are the nodes of its graph that have no identity. -/
theorem Runs.size_roots (run : empty.Runs steps m) :
    m.anonymousRoots.size = m.graph.anonymousCount := by
  have hm := run.wellFormed wellFormed_empty
  rw [← Array.length_toList, run.roots_eq_filter, ← List.countP_eq_length_filter,
    UseGraph.anonymousCount, hm.nodes_graph, List.toList_toArray, List.countP_map]
  rfl

/-! ### Meeting the nodes of the graph -/

/-- **A node that shows a known ordinal or the next one is given the slot of that ordinal.** -/
theorem WellFormed.sighted_ordinal (hm : m.WellFormed) (hnone : n.hasIdentity = false)
    (ho : n.subgraph = some o) (hle : o ≤ m.anonymousRoots.size) :
    (m.sighted n).anonymousRoots.size = max m.anonymousRoots.size (o + 1)
      ∧ (m.sighted n).anonymousRoots[o]? = some (m.sighting n).slot := by
  rcases Nat.lt_or_eq_of_le hle with hlt | hnext
  · obtain ⟨slot, hroot⟩ : ∃ slot, m.anonymousRoots[o]? = some slot :=
      ⟨_, Array.getElem?_eq_getElem hlt⟩
    have hrecognised := recognise_of_ordinal ho (hm.atOrdinal?_eq o ▸ hroot)
    have hsighted : m.sighted n = m := by rw [Merger.sighted, hrecognised, Merger.settleAs]
    have hslot : (m.sighting n).slot = slot := by rw [sighting, hrecognised, Merger.settleAs]
    rw [hsighted, hslot]
    exact ⟨(Nat.max_eq_left hlt).symm, hroot⟩
  · have hfresh : m.recognise n = .fresh := by
      refine (m.recognise_anonymous_iff hnone).mpr fun o' ho' ↦ ?_
      obtain rfl : o = o' := Option.some.inj (ho.symm.trans ho')
      rw [hm.atOrdinal?_eq, Array.getElem?_eq_none (Nat.le_of_eq hnext.symm)]
    rw [anonymousRoots_sighted_of_fresh hfresh hnone, slot_sighting_of_fresh hfresh, hnext,
      Array.size_push, Array.getElem?_push_size]
    exact ⟨(Nat.max_eq_right (Nat.le_succ _)).symm, rfl⟩

/-- **A node with an identity and without an ordinal is given the slot of no ordinal**, and hands
out none. -/
theorem WellFormed.sighted_unnumbered (hm : m.WellFormed) (hidentity : n.hasIdentity = true)
    (ho : n.subgraph = none) :
    (m.sighted n).anonymousRoots = m.anonymousRoots ∧ (m.sighting n).slot ∉ m.anonymousRoots := by
  rcases m.sighted_cases ho with ⟨-, hcand, -, hroots⟩ | ⟨-, hslot, -, hroots⟩
  · exact ⟨hroots, (hm.of_candidate hcand).2.2⟩
  · rw [if_pos hidentity] at hroots
    refine ⟨hroots, fun hroot ↦ ?_⟩
    rw [hslot] at hroot
    exact Nat.lt_irrefl _ (hm.root_lt hroot)

/-- **A node of a graph that can be rebuilt is given the slot of its ordinal, if it has one**,
provided that the merger has handed out the ordinals before. -/
theorem WellFormed.sighted_node {count : Nat} (hm : m.WellFormed) (hg : g.Rebuildable)
    (hn : g.node? count = some n) (hle : g.anonymousBefore count ≤ m.anonymousRoots.size) :
    (m.sighted n).anonymousRoots.size = max m.anonymousRoots.size (g.anonymousBefore (count + 1))
      ∧ ∀ o, (m.sighted n).anonymousRoots[o]? = some (m.sighting n).slot ↔ n.subgraph = some o := by
  have hcount := UseGraph.anonymousBefore_succ hn
  have hshown := hg.subgraph_eq hn
  cases hidentity : n.hasIdentity with
  | false =>
    rw [hidentity] at hcount hshown
    obtain ⟨hsize, hroot⟩ := hm.sighted_ordinal hidentity hshown hle
    refine ⟨hsize.trans (congrArg _ hcount.symm), fun o ↦ ?_⟩
    rw [show n.subgraph = some (g.anonymousBefore count) from hshown, Option.some_inj]
    exact ⟨(hm.sighted n).ordinal_inj hroot, fun ho ↦ ho ▸ hroot⟩
  | true =>
    rw [hidentity] at hcount hshown
    obtain ⟨hroots, hnot⟩ := hm.sighted_unnumbered hidentity hshown
    refine ⟨?_, fun o ↦ ?_⟩
    · rw [hroots, hcount, if_pos rfl, Nat.add_zero, Nat.max_eq_left hle]
    · rw [hroots, show n.subgraph = none from hshown]
      exact ⟨fun hroot ↦ absurd (Array.mem_of_getElem? hroot) hnot, fun hnone ↦ nomatch hnone⟩

/-- **What a merger has become when it has met the first nodes of a graph**: `k` is the merger, `l`
what it has become, and `past` are the sightings of the nodes. -/
structure Receives (k : Merger) (g : UseGraph) (l : Merger) (past : List Sighting) : Prop where
  /-- Ordinals are handed out for the nodes without identity that show a later ordinal than the
  merger has. -/
  size_roots : l.anonymousRoots.size = max k.anonymousRoots.size (g.anonymousBefore past.length)
  size_le : k.slots.size ≤ l.slots.size
  /-- A slot that was there before has the ordinal that it had. -/
  root_iff : ∀ {o slot : Nat}, slot < k.slots.size →
    (l.anonymousRoots[o]? = some slot ↔ k.anonymousRoots[o]? = some slot)
  slot_lt : ∀ {x : Sighting}, x ∈ past → x.slot < l.slots.size
  /-- A node is given the slot of an ordinal just if it shows the ordinal. -/
  placed_iff : ∀ {x : Sighting} {o : Nat}, x ∈ past →
    (l.anonymousRoots[o]? = some x.slot ↔ x.node.subgraph = some o)

theorem receives_nil (k : Merger) (g : UseGraph) : k.Receives g k [] where
  size_roots := (Nat.max_eq_left (Nat.zero_le _)).symm
  size_le := Nat.le_refl _
  root_iff _ := Iff.rfl
  slot_lt hx := nomatch hx
  placed_iff hx := nomatch hx

namespace Receives

/-- The next node may be met. -/
theorem sighted (h : k.Receives g l past) (hl : l.WellFormed) (hg : g.Rebuildable)
    (hn : g.node? past.length = some n) : k.Receives g (l.sighted n) (past ++ [l.sighting n]) := by
  have hold := h.size_roots
  obtain ⟨hsize, hplaced⟩ := hl.sighted_node hg hn (by omega)
  have hmono : g.anonymousBefore past.length ≤ g.anonymousBefore (past.length + 1) := by
    rw [UseGraph.anonymousBefore_succ hn]
    exact Nat.le_add_right _ _
  have hgrows := l.size_slots_le_sighted n
  exact {
    size_roots := by
      rw [hsize, hold, List.length_append, List.length_singleton]
      omega
    size_le := Nat.le_trans h.size_le hgrows
    root_iff := fun hslot ↦ (root_sighted_iff (Nat.lt_of_lt_of_le hslot h.size_le) n).trans
      (h.root_iff hslot)
    slot_lt := fun {x} hx ↦ by
      rcases List.mem_append.mp hx with hx | hx
      · exact Nat.lt_of_lt_of_le (h.slot_lt hx) hgrows
      · rw [List.mem_singleton.mp hx]
        exact slot_sighting_lt hl n
    placed_iff := fun {x o} hx ↦ by
      rcases List.mem_append.mp hx with hx | hx
      · exact (root_sighted_iff (h.slot_lt hx) n).trans (h.placed_iff hx)
      · rw [List.mem_singleton.mp hx]
        exact hplaced o }

end Receives

/-- **A merger meets all nodes of a graph.** -/
theorem WellFormed.receives (hk : k.WellFormed) (hg : g.Rebuildable) :
    k.Receives g (g.toBatch.nodes.foldl Merger.sighted k) (k.sightings g.toBatch.nodes) := by
  let P (l : Merger) (past : List Sighting) : Prop := k.Receives g l past
  have hstart : P k [] := receives_nil k g
  have hall : g.toBatch.nodes.drop ([] : List Sighting).length = g.toBatch.nodes := rfl
  exact preserves_foldl_sighted_getElem? hall hk hstart fun hn hl h ↦
    h.sighted hl hg (getElem?_toBatch g _ ▸ hn)

/-- **What a root of the merger shows is not changed by the nodes of the graph.** Only a new root of
a batch could add a use to it, and the root of the graph is known. -/
theorem node_sighted_of_root (hm : m.WellFormed) (hroot : slot ∈ m.anonymousRoots)
    (hid : n.id = 0 → n.subgraph = some 0) : (m.sighted n).node slot = m.node slot := by
  let P (m' : Merger) : Prop := m'.node slot = m.node slot
  have hstart : P m := rfl
  suffices hsighted : P (m.sighted n) from hsighted
  have hne {a : Nat} (ha : a ∉ m.anonymousRoots) : slot ≠ a := fun heq ↦ ha (heq ▸ hroot)
  refine hm.settleAs_preserves (m.recognises n) hstart ?_ ?_ ?_
  · intro a _ hlt _ ha
    show (m.register n a).node slot = m.node slot
    rw [node_register hlt, if_neg (hne ha)]
  · intro a b hab ha hb
    show (m.unify a b).node slot = m.node slot
    have hmin := min_rec' (fun c ↦ c ∉ m.anonymousRoots) ha.2.2 hb.2.2
    have hmax := max_rec' (fun c ↦ c ∉ m.anonymousRoots) ha.2.2 hb.2.2
    rw [node_unify hab ha.1 hb.1, if_neg (hne hmin), if_neg (hne hmax)]
  · intro hfresh _
    show (m.allocate n).node slot = m.node slot
    have hlater : n.id ≠ 0 := fun hzero ↦ by
      have hknown := recognise_of_ordinal (hid hzero) ((hm.atOrdinal?_eq 0).trans hm.first_root)
      rw [hfresh] at hknown
      cases hknown
    rw [node_allocate hm.slots_pos, if_neg (Nat.ne_of_lt (hm.root_lt hroot)),
      if_neg fun hs ↦ hlater hs.2]

theorem node_foldl_sighted_of_root {ns : List Node} (hm : m.WellFormed)
    (hroot : slot ∈ m.anonymousRoots) (hid : ∀ n ∈ ns, n.id = 0 → n.subgraph = some 0) :
    (ns.foldl sighted m).node slot = m.node slot := by
  let P (m' : Merger) (_ : List Sighting) : Prop :=
    slot ∈ m'.anonymousRoots ∧ m'.node slot = m.node slot
  have hstart : P m [] := ⟨hroot, rfl⟩
  suffices hrun : P (ns.foldl sighted m) ([] ++ m.sightings ns) from hrun.2
  refine preserves_foldl_sighted hm hstart ?_
  intro m' _ n hn hm' ⟨hroot', hnode⟩
  refine ⟨?_, (node_sighted_of_root hm' hroot' (hid n hn)).trans hnode⟩
  obtain ⟨o, ho⟩ := Array.mem_iff_getElem?.mp hroot'
  exact Array.mem_of_getElem? ((root_sighted_iff (hm'.root_lt hroot') n).mpr ho)

/-! ### What the merge comes to -/

section

variable {merged : Merged} {id : Nat} (hk : k.WellFormed) (hg : g.Rebuildable)
  (hmerge : k.merge g.toBatch = .ok merged)

include hk hg hmerge

/-- **A node of the graph is taken for the declaration of an ordinal just if it shows the
ordinal.** -/
theorem atOrdinal?_slotOf_iff (hn : g.node? id = some n) :
    merged.merger.atOrdinal? o = some (merged.merger.forest.find (merged.slotOf id)) ↔
      n.subgraph = some o := by
  obtain ⟨hb, rfl⟩ := merge_eq_ok_iff.mp hmerge
  have hmerged := hk.mergeSound g.toBatch
  obtain ⟨x, hx, rfl⟩ : ∃ x ∈ k.sightings g.toBatch.nodes, x.node = n := by
    rw [← List.mem_map, map_node_sightings]
    exact List.mem_of_getElem? ((getElem?_toBatch g id).trans hn)
  rw [← hg.id_eq hn, slotOf_id hb hx, hmerged.atOrdinal?_eq, hmerged.root_find_iff,
    merger_mergeSound, anonymousRoots_connectAll]
  exact (hk.receives hg).placed_iff hx

/-- A slot that was there before has the ordinal that it had. -/
theorem atOrdinal?_merged_iff (hslot : slot < k.slots.size) :
    merged.merger.atOrdinal? o = some slot ↔ k.atOrdinal? o = some slot := by
  obtain ⟨-, rfl⟩ := merge_eq_ok_iff.mp hmerge
  rw [(hk.mergeSound g.toBatch).atOrdinal?_eq, hk.atOrdinal?_eq, merger_mergeSound,
    anonymousRoots_connectAll]
  exact (hk.receives hg).root_iff hslot

/-- **A root of the merger gains the edges of the node that shows its ordinal**, and no others. -/
theorem node_merged_of_atOrdinal? (hroot : k.atOrdinal? o = some slot) : merged.merger.node slot
    = { k.node slot with
        uses := (k.node slot).uses
          ++ (g.toBatch.nodes.filter fun n ↦ n.subgraph = some o).flatMap fun n ↦
            n.uses.map merged.slotOf
        owns := (k.node slot).owns
          ++ (g.toBatch.nodes.filter fun n ↦ n.subgraph = some o).flatMap fun n ↦
            n.owns.map merged.slotOf } := by
  have hknown := hroot
  rw [hk.atOrdinal?_eq] at hknown
  have hmem : slot ∈ k.anonymousRoots := Array.mem_of_getElem? hknown
  have hlater := (atOrdinal?_merged_iff hk hg hmerge (hk.root_lt hmem)).mpr hroot
  have hplaced {n : Node} (hn : g.node? n.id = some n) :=
    atOrdinal?_slotOf_iff (o := o) hk hg hmerge hn
  obtain ⟨-, rfl⟩ := merge_eq_ok_iff.mp hmerge
  have hnode {n : Node} (hn : n ∈ g.toBatch.nodes) := node?_of_mem_toBatch hg.toWellFormed hn
  have hsources : (g.toBatch.nodes.filter fun n ↦ (g.toBatch.nodes.foldl sighted k).forest.find
      ((k.mergeSound g.toBatch).slotOf n.id) = slot) = g.toBatch.nodes.filter fun n ↦
        n.subgraph = some o := by
    refine List.filter_congr fun n hn ↦ decide_eq_decide.mpr ?_
    rw [← hplaced (hnode hn), hlater, Option.some_inj, forest_mergeSound, eq_comm]
  have hlt : ∀ n ∈ g.toBatch.nodes, (g.toBatch.nodes.foldl sighted k).forest.find
      ((k.mergeSound g.toBatch).slotOf n.id) < (g.toBatch.nodes.foldl sighted k).slots.size :=
      fun n _ ↦
    Forest.find_lt (slotOf_lt hk g.toBatch n.id)
  rw [merger_mergeSound, node_connectAll_eq hlt, hsources,
    node_foldl_sighted_of_root hk hmem fun n hn ↦ hg.subgraph_of_id_eq_zero (hnode hn)]

end

/-- **The number of declarations without identity** is the larger one of the two. -/
theorem Runs.anonymousCount_merged (run : empty.Runs steps k) (hg : g.Rebuildable) {merged : Merged}
    (hmerge : k.merge g.toBatch = .ok merged) :
    merged.merger.graph.anonymousCount = max k.graph.anonymousCount g.anonymousCount := by
  have hlater := run.append (.cons hmerge (.nil _))
  have hk := run.wellFormed wellFormed_empty
  rw [← hlater.size_roots, ← run.size_roots, ← g.anonymousBefore_size]
  obtain ⟨-, rfl⟩ := merge_eq_ok_iff.mp hmerge
  have hlength : (k.sightings g.toBatch.nodes).length = g.size :=
    (k.length_sightings _).trans Array.length_toList
  rw [merger_mergeSound, anonymousRoots_connectAll, (hk.receives hg).size_roots, hlength]

/-- A run without ordinals ends with the root of the graph and with the roots of batches that have
no identity. -/
theorem Runs.anonymousCount_eq (run : empty.Runs steps m)
    (hord : ∀ s ∈ steps, ∀ n ∈ s.batch.nodes, n.subgraph = none) : m.graph.anonymousCount
      = ((steps.map Step.batch).flatMap Batch.nodes).countP (fun n ↦ !n.hasIdentity) + 1 := by
  rw [← run.size_roots, ← Array.length_toList, run.anonymousRoots_eq hord, List.length_cons,
    List.length_map, anonymous, ← List.countP_eq_length_filter, ← map_node_flatMap_sightings,
    List.countP_map]
  rfl

/-- **What comes of a graph that is merged into a merger which has seen other batches.** -/
structure Transfers (k : Merger) (g : UseGraph) (merged : Merged) : Prop where
  /-- There are as many declarations without identity as the larger one of the two had. -/
  count_eq : merged.merger.graph.anonymousCount = max k.graph.anonymousCount g.anonymousCount
  /-- A node of the graph shows an ordinal just for want of an identity: the number of such nodes
  before it. -/
  subgraph_eq : ∀ id n, g.node? id = some n →
    n.subgraph = if n.hasIdentity then none else some (g.anonymousBefore id)
  /-- It is taken for the declaration of an ordinal just if it shows the ordinal. -/
  slotOf_iff : ∀ id n o, g.node? id = some n →
    (merged.merger.atOrdinal? o = some (merged.merger.forest.find (merged.slotOf id)) ↔
      n.subgraph = some o)
  /-- A declaration of the merger that has no identity has an ordinal. -/
  exists_ordinal : ∀ id n, k.graph.node? id = some n → n.hasIdentity = false →
    ∃ o, n.subgraph = some o ∧ (k.atOrdinal? o).map k.forest.rank = some id
  /-- It keeps the ordinal, and gains the edges of the node of the graph that shows it. -/
  known : ∀ o slot, k.atOrdinal? o = some slot → merged.merger.atOrdinal? o = some slot
    ∧ merged.merger.node slot = { k.node slot with
        uses := (k.node slot).uses
          ++ (g.toBatch.nodes.filter fun n ↦ n.subgraph = some o).flatMap fun n ↦
            n.uses.map merged.slotOf
        owns := (k.node slot).owns
          ++ (g.toBatch.nodes.filter fun n ↦ n.subgraph = some o).flatMap fun n ↦
            n.owns.map merged.slotOf }
  /-- An ordinal that the merger had not handed out leads to a new slot. -/
  size_le : ∀ o slot, k.atOrdinal? o = none → merged.merger.atOrdinal? o = some slot →
    k.slots.size ≤ slot
  /-- Afterwards, too, a declaration that has no identity has an ordinal. -/
  exists_ordinal_merged : ∀ id n, merged.merger.graph.node? id = some n → n.hasIdentity = false →
    ∃ o, n.subgraph = some o ∧ (merged.merger.atOrdinal? o).map merged.merger.forest.rank = some id

/-- **What has no identity is matched by its ordinal.** The graph of batches without ordinals may be
merged into any merger that batches can be merged into. A node without identity whose ordinal the
merger has handed out is taken for the declaration of that ordinal, which gains its edges; the
others are new, and no node with an identity is taken for a declaration without. -/
theorem transfers_graph {bs cs : List Batch} (hm : (Merger.empty.mergeAll bs).result = .ok m)
    (hord : ∀ b ∈ bs, ∀ n ∈ b.nodes, n.subgraph = none)
    (hk : (Merger.empty.mergeAll cs).result = .ok k) :
    ∃ merged, k.merge m.graph.toBatch = .ok merged ∧ k.Transfers m.graph merged := by
  obtain ⟨steps, rfl, run⟩ := mergeAll_eq_ok_iff.mp hm
  obtain ⟨earlier, rfl, runk⟩ := mergeAll_eq_ok_iff.mp hk
  have hordsteps : ∀ s ∈ steps, ∀ n ∈ s.batch.nodes, n.subgraph = none := fun s hs ↦
    hord _ (List.mem_map_of_mem hs)
  have hwell := runk.wellFormed wellFormed_empty
  have hg := run.rebuildable hordsteps
  have hmerge : k.merge m.graph.toBatch = .ok (k.mergeSound m.graph.toBatch) :=
    merge_eq_ok_iff.mpr ⟨hg.accepted, rfl⟩
  refine ⟨_, hmerge, ?_⟩
  exact {
    count_eq := runk.anonymousCount_merged hg hmerge
    subgraph_eq := fun id n ↦ hg.subgraph_eq
    slotOf_iff := fun id n o ↦ atOrdinal?_slotOf_iff hwell hg hmerge
    exists_ordinal := fun id n ↦ runk.exists_ordinal
    known := fun o slot hroot ↦ by
      have hlt : slot < k.slots.size :=
        hwell.root_lt (Array.mem_of_getElem? (hwell.atOrdinal?_eq o ▸ hroot))
      exact ⟨(atOrdinal?_merged_iff hwell hg hmerge hlt).mpr hroot,
        node_merged_of_atOrdinal? hwell hg hmerge hroot⟩
    size_le := fun o slot hnone hroot ↦ by
      by_contra hlt
      rw [atOrdinal?_merged_iff hwell hg hmerge (Nat.lt_of_not_le hlt), hnone] at hroot
      cases hroot
    exists_ordinal_merged := fun id n ↦ (runk.append (.cons hmerge (.nil _))).exists_ordinal }

/-! ### Two graphs with a root each -/

/-- A batch whose root has no identity and uses a function. -/
def rootOf (function : String) : Batch :=
  ⟨[{ Node.root with uses := [1] },
    { id := 1, name := function, exported := false, kind := .function,
      path := some ⟨"pkg", function⟩ }]⟩

/-- If the batch is accepted, its root and that of the graph are the declarations without
identity. -/
theorem exists_run_rootOf {function : String} (hcheck : ∀ b ∈ [rootOf function], b.check = .ok ()) :
    ∃ steps m, steps.map Step.batch = [rootOf function] ∧ Merger.empty.Runs steps m
      ∧ m.graph.Rebuildable
      ∧ m.graph.anonymousCount = 2 := by
  obtain ⟨steps, m, hsteps, run, -⟩ := UseGraph.exists_run_ofBatches hcheck
  have hnone : ∀ b ∈ [rootOf function], ∀ n ∈ b.nodes, n.subgraph = none := by
    simp [rootOf, Node.root]
  have hord : ∀ s ∈ steps, ∀ n ∈ s.batch.nodes, n.subgraph = none := fun s hs ↦
    hnone _ (hsteps ▸ List.mem_map_of_mem hs)
  refine ⟨steps, m, hsteps, run, run.rebuildable hord, ?_⟩
  have haccepted : ∀ b ∈ [rootOf function], b.Accepted :=
    fun b hb ↦ Batch.check_eq_ok_iff.mp (hcheck b hb)
  rw [run.anonymousCount_eq hord, hsteps, countP_flatMap_nodes haccepted hnone]
  rfl

/-- The graph of a batch is merged into the merger of another one. -/
theorem transfers_graph_rootOf : ∃ m k merged, (Merger.empty.mergeAll [rootOf "f"]).result = .ok m
    ∧ (∀ b ∈ [rootOf "f"], ∀ n ∈ b.nodes, n.subgraph = none)
    ∧ (Merger.empty.mergeAll [rootOf "g"]).result = .ok k
    ∧ k.merge m.graph.toBatch = .ok merged ∧ k.Transfers m.graph merged := by
  obtain ⟨steps, m, hsteps, run, -⟩ := exists_run_rootOf (show ∀ b ∈ [rootOf "f"], _ from by decide)
  obtain ⟨earlier, k, hearlier, runk, -⟩ :=
    exists_run_rootOf (show ∀ b ∈ [rootOf "g"], _ from by decide)
  have hm := mergeAll_eq_ok_iff.mpr ⟨steps, hsteps, run⟩
  have hk := mergeAll_eq_ok_iff.mpr ⟨earlier, hearlier, runk⟩
  obtain ⟨merged, hmerge, htransfers⟩ := transfers_graph hm (by decide) hk
  exact ⟨m, k, merged, hm, by decide, hk, hmerge, htransfers⟩

/-- **The roots of the two batches are taken for one**: the merger has no more declarations without
identity than before. -/
theorem anonymousCount_rootOf_ne : (∀ b ∈ [rootOf "f", rootOf "g"], b.check = .ok ())
    ∧ (∀ b ∈ [rootOf "f", rootOf "g"], ∀ n ∈ b.nodes, n.subgraph = none)
    ∧ ∃ m k merged, (Merger.empty.mergeAll [rootOf "f"]).result = .ok m
      ∧ (Merger.empty.mergeAll [rootOf "g"]).result = .ok k ∧ k.merge m.graph.toBatch = .ok merged
      ∧ merged.merger.graph.anonymousCount
        ≠ k.graph.anonymousCount + (m.graph.anonymousCount - 1) := by
  obtain ⟨steps, m, hsteps, run, hg, hcount⟩ :=
    exists_run_rootOf (show ∀ b ∈ [rootOf "f"], _ from by decide)
  obtain ⟨earlier, k, hearlier, runk, -, hcountk⟩ :=
    exists_run_rootOf (show ∀ b ∈ [rootOf "g"], _ from by decide)
  have hmerge : k.merge m.graph.toBatch = .ok (k.mergeSound m.graph.toBatch) :=
    merge_eq_ok_iff.mpr ⟨hg.accepted, rfl⟩
  refine ⟨by decide, by decide, m, k, _, mergeAll_eq_ok_iff.mpr ⟨steps, hsteps, run⟩,
    mergeAll_eq_ok_iff.mpr ⟨earlier, hearlier, runk⟩, hmerge, ?_⟩
  rw [runk.anonymousCount_merged hg hmerge, hcount, hcountk]
  decide

end Merger

end DeclExtract
