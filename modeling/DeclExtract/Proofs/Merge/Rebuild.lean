import DeclExtract.Proofs.Merge.Consistency
import DeclExtract.Proofs.Merge.Remerge
import DeclExtract.Proofs.Merge.RootUses

/-!
# Rebuilding a graph from its nodes

The nodes of a graph can be merged into an empty merger, and the graph that comes of it has the same
nodes. Two halves meet at `UseGraph.Rebuildable`, which says of a graph what it takes.

* The first node is the root and shows the first ordinal. So it is recognised as the root that an
  empty merger has already, and no edge of the root is added for it.
* No two nodes share an identity, and a node without identity shows the ordinal that comes next: the
  number of such nodes before it. So every other node is new when it comes, and is given the slot of
  its own id (`Rebuilds.sighted`).
* A node shows no path that could not tell declarations apart, and no ordinal besides the one for
  want of an identity. So what is put into the slot is the node itself without its edges, which the
  second pass adds (`Rebuildable.node_merged`).

The graphs of batches without ordinals are like this (`Runs.rebuildable`). A run gives ordinals in
the order of its slots (`Runs.pairwise_roots`), and numbers its declarations in that order as well.
All that it does to the slot of the root is to add edges (`Runs.unlinked_root`).
-/

namespace DeclExtract

/-- The node without its edges. -/
def Node.unlinked (n : Node) : Node :=
  { n with uses := [], owns := [] }

/-- The number of nodes without identity before an id. -/
def UseGraph.anonymousBefore (g : UseGraph) (id : Nat) : Nat :=
  (g.nodes.toList.take id).countP fun n ↦ !n.hasIdentity

/-- **What lets a graph be rebuilt from its nodes.** -/
structure UseGraph.Rebuildable (g : UseGraph) : Prop extends g.WellFormed where
  /-- The first node is what an empty merger starts with. -/
  exists_root : ∃ root, g.node? 0 = some root ∧ root.unlinked = Merger.graphRoot
  /-- A node shows no path that could not tell declarations apart. -/
  path_eq : ∀ {id n}, g.node? id = some n → n.path = n.stablePath
  /-- A node shows an ordinal just for want of an identity, and that is the one which comes next. -/
  subgraph_eq : ∀ {id n}, g.node? id = some n →
    n.subgraph = if n.hasIdentity then none else some (g.anonymousBefore id)
  /-- Nodes that show one identity are one node. -/
  eq_of_shared : ∀ {id id' n n' i}, g.node? id = some n → g.node? id' = some n' →
    i ∈ n.identities → i ∈ n'.identities → id = id'

namespace UseGraph

variable {g : UseGraph} {id : Nat} {n : Node}

theorem anonymousBefore_succ (hn : g.node? id = some n) :
    g.anonymousBefore (id + 1) = g.anonymousBefore id + if n.hasIdentity then 0 else 1 := by
  have hget : g.nodes.toList[id]? = some n := by rw [Array.getElem?_toList]; exact hn
  rw [anonymousBefore, List.take_add_one, hget, List.countP_append, Option.toList_some,
    List.countP_singleton, anonymousBefore]
  cases n.hasIdentity <;> rfl

/-- A graph that can be rebuilt is accepted as a batch. -/
theorem Rebuildable.accepted (h : g.Rebuildable) : g.toBatch.Accepted where
  id_eq {index n} hn := h.id_eq (Merger.getElem?_toBatch g index ▸ hn)
  target_lt {n t} hn ht := h.target_lt (Merger.node?_of_mem_toBatch h.toWellFormed hn) ht
  id_eq_zero {n} hn hnone hord := by
    have hshown := h.subgraph_eq (Merger.node?_of_mem_toBatch h.toWellFormed hn)
    rw [hord, hnone] at hshown
    cases hshown

end UseGraph

/-- What passes a filter stands where as many pass before it. -/
theorem getElem?_filter_countP {α : Type} {p : α → Bool} {xs : List α} {index : Nat} {x : α}
    (hx : xs[index]? = some x) (hp : p x = true) :
    (xs.filter p)[(xs.take index).countP p]? = some x := by
  induction xs generalizing index with
  | nil => cases hx
  | cons y ys ih =>
    cases index with
    | zero =>
      obtain rfl : y = x := Option.some.inj hx
      rw [List.filter_cons_of_pos hp]
      rfl
    | succ index =>
      rw [List.getElem?_cons_succ] at hx
      rw [List.take_succ_cons, List.countP_cons, List.filter_cons]
      split
      next => rw [List.getElem?_cons_succ, ih hx]
      next => rw [Nat.add_zero, ih hx]

namespace Merger

variable {g : UseGraph} {k m : Merger} {n : Node} {count id : Nat} {steps : List Step}

/-! ### The first pass -/

/-- **A merger that has met the first nodes of a graph** holds them without their edges, each in the
slot of its id. -/
structure Rebuilds (k : Merger) (g : UseGraph) (count : Nat) : Prop where
  wellFormed : k.WellFormed
  count_le : count ≤ g.size
  size_eq : k.slots.size = count
  find_eq : ∀ slot, k.forest.find slot = slot
  node_eq : ∀ {id n}, id < count → g.node? id = some n → k.node id = n.unlinked
  size_roots : k.anonymousRoots.size = g.anonymousBefore count
  exists_carrier : ∀ {i slot}, k.indexed? i = some slot →
    slot < count ∧ ∃ n, g.node? slot = some n ∧ i ∈ n.identities

namespace Rebuilds

variable (h : k.Rebuilds g count) (hg : g.Rebuildable) (hn : g.node? count = some n)

include h hg hn

/-- **The next node of the graph is new.** -/
theorem recognise_eq_fresh : k.recognise n = .fresh := by
  refine recognise_eq_fresh_iff.mpr
    ⟨fun o ho ↦ ?_, List.eq_nil_iff_forall_not_mem.mpr fun c hc ↦ ?_⟩
  · -- the ordinal is the next one to be given
    rw [hg.subgraph_eq hn] at ho
    split at ho
    next => cases ho
    next =>
      rw [atOrdinal?, ← Option.some.inj ho, Array.getElem?_eq_none (Nat.le_of_eq h.size_roots),
        Option.map_none]
  · obtain ⟨i, hi, hknown⟩ := mem_candidates.mp hc
    obtain ⟨slot, hslot, -⟩ := Option.map_eq_some_iff.mp hknown
    obtain ⟨hlt, k, hk, hik⟩ := h.exists_carrier hslot
    exact Nat.ne_of_lt hlt (hg.eq_of_shared hk hn hik hi)

/-- What a new slot is given is the node without its edges. -/
theorem settle_eq : k.settle n count = n.unlinked := by
  have hpath := hg.path_eq hn
  have hsubgraph :
      (if n.hasIdentity then n.subgraph else some k.anonymousRoots.size) = n.subgraph := by
    rw [hg.subgraph_eq hn, h.size_roots]
    split <;> rfl
  calc k.settle n count
      = { n with
          id := count, path := n.stablePath, uses := [], owns := []
          subgraph := if n.hasIdentity then n.subgraph else some k.anonymousRoots.size } := rfl
    _ = { n with uses := [], owns := [] } := by rw [hsubgraph, ← hpath, ← hg.id_eq hn]

/-- **The next node of the graph is given the slot of its id.** -/
theorem sighted (hpos : 0 < count) :
    (k.sighted n).Rebuilds g (count + 1) ∧ (k.sighting n).slot = count := by
  have hfresh := h.recognise_eq_fresh hg hn
  have hslot : (k.sighting n).slot = count := (slot_sighting_of_fresh hfresh).trans h.size_eq
  have hid : n.id ≠ 0 := hg.id_eq hn ▸ Nat.ne_of_gt hpos
  have hnode (s : Nat) : (k.allocate n).node s = if s = count then n.unlinked else k.node s := by
    rw [node_allocate h.wellFormed.slots_pos, h.size_eq]
    split
    next hs =>
      -- registering the node for its own slot completes nothing
      have hpath : n.unlinked.path = n.unlinked.stablePath :=
        show n.path = n.stablePath from hg.path_eq hn
      rw [hs, h.settle_eq hg hn]
      exact complete_eq_self hpath id id id
    next =>
      rw [if_neg fun hs ↦ hid hs.2]
  rw [sighted_of_fresh hfresh]
  refine ⟨?_, hslot⟩
  exact {
    wellFormed := h.wellFormed.allocate n
    count_le := UseGraph.lt_size_of_node? hn
    size_eq := by rw [size_slots_allocate, h.size_eq]
    find_eq := fun slot ↦ by
      rw [forest_allocate, Forest.find_grow]
      exact h.find_eq slot
    node_eq := fun {id k} hlt hk ↦ by
      rw [hnode]
      split
      next hs =>
        rw [hs, hn] at hk
        rw [Option.some.inj hk]
      next hs => exact h.node_eq (by omega) hk
    size_roots := by
      rw [anonymousRoots_allocate, UseGraph.anonymousBefore_succ hn, ← h.size_roots]
      split
      · rfl
      · exact Array.size_push _
    exists_carrier := fun {i slot} hindexed ↦ by
      rw [indexed?_allocate, Option.or_eq_some_iff] at hindexed
      rcases hindexed with hold | ⟨-, htaken⟩
      · obtain ⟨hlt, hcarrier⟩ := h.exists_carrier hold
        exact ⟨Nat.lt_succ_of_lt hlt, hcarrier⟩
      · split at htaken
        next hi =>
          obtain rfl : count = slot := h.size_eq.symm.trans (Option.some.inj htaken)
          exact ⟨Nat.lt_succ_self _, n, hn, hi⟩
        next => cases htaken }

end Rebuilds

/-- **The rest of the graph is given the slots of its ids.** -/
theorem Rebuilds.foldl_sighted (h : k.Rebuilds g count) (hg : g.Rebuildable) (hpos : 0 < count)
    {ns : List Node} (hns : g.nodes.toList.drop count = ns) :
    (ns.foldl Merger.sighted k).Rebuilds g g.size
      ∧ (k.sightings ns).map Sighting.slot = List.range' count ns.length := by
  induction ns generalizing k count with
  | nil =>
    have hsize : g.size ≤ count := List.drop_eq_nil_iff.mp hns
    exact ⟨Nat.le_antisymm h.count_le hsize ▸ h, rfl⟩
  | cons n ns ih =>
    have hn : g.node? count = some n := by
      rw [UseGraph.node?, ← Array.getElem?_toList, ← Nat.add_zero count, ← List.getElem?_drop, hns,
        List.getElem?_cons_zero]
    have hrest : g.nodes.toList.drop (count + 1) = ns := by
      rw [← List.drop_drop, hns, List.drop_one, List.tail_cons]
    obtain ⟨hnext, hslot⟩ := h.sighted hg hn hpos
    obtain ⟨hlast, hslots⟩ := ih hnext (Nat.succ_pos count) hrest
    refine ⟨hlast, ?_⟩
    rw [sightings, List.map_cons, hslot, hslots, List.length_cons, List.range'_succ]

/-- An empty merger has met the root of the graph. -/
theorem rebuilds_empty (hg : g.Rebuildable) : empty.Rebuilds g 1 := by
  obtain ⟨root, hroot, hunlinked⟩ := hg.exists_root
  have hidentity : root.hasIdentity = false :=
    show root.unlinked.hasIdentity = false from hunlinked ▸ rfl
  exact {
    wellFormed := wellFormed_empty
    count_le := UseGraph.lt_size_of_node? hroot
    size_eq := rfl
    find_eq := fun slot ↦ by
      rw [show empty.forest = Forest.empty.grow from rfl, Forest.find_grow]
      exact Forest.find_of_size_le (Nat.zero_le slot)
    node_eq := fun {id n} hlt hn ↦ by
      obtain rfl : id = 0 := Nat.lt_one_iff.mp hlt
      rw [hroot, Option.some_inj] at hn
      rw [← hn, hunlinked]
      rfl
    size_roots := by
      rw [show (1 : Nat) = 0 + 1 from rfl, UseGraph.anonymousBefore_succ hroot, hidentity]
      rfl
    exists_carrier := fun hindexed ↦ by
      rw [indexed?_empty] at hindexed
      cases hindexed }

/-- **The first pass over a graph makes it anew**, without its edges. -/
theorem rebuilds_foldl_sighted (hg : g.Rebuildable) :
    (g.toBatch.nodes.foldl sighted empty).Rebuilds g g.size
    ∧ (empty.sightings g.toBatch.nodes).map Sighting.slot = List.range g.size := by
  obtain ⟨root, hroot, hunlinked⟩ := hg.exists_root
  have hsubgraph : root.subgraph = some 0 :=
    show root.unlinked.subgraph = some 0 from hunlinked ▸ rfl
  have hrecognised : empty.recognise root = .root 0 0 :=
    recognise_of_ordinal hsubgraph
    ((wellFormed_empty.atOrdinal?_eq 0).trans wellFormed_empty.first_root)
  have hsighted : empty.sighted root = empty := by rw [sighted, hrecognised, settleAs]
  have hslot : (empty.sighting root).slot = 0 := by rw [sighting, hrecognised, settleAs]
  have hsplit : g.toBatch.nodes = root :: g.nodes.toList.drop 1 := by
    have hget : g.nodes.toList[0]? = some root := by rw [Array.getElem?_toList]; exact hroot
    obtain ⟨hlt, hfirst⟩ := List.getElem?_eq_some_iff.mp hget
    rw [UseGraph.toBatch, ← hfirst, ← List.drop_eq_getElem_cons hlt, List.drop_zero]
  obtain ⟨hlast, hslots⟩ := (rebuilds_empty hg).foldl_sighted hg Nat.zero_lt_one rfl
  rw [hsplit, List.foldl_cons, sightings, List.map_cons, hsighted, hslot]
  refine ⟨hlast, ?_⟩
  have hsize : g.size = (g.nodes.toList.drop 1).length + 1 := by
    rw [← List.length_cons (a := root), ← hsplit]
    exact Array.length_toList.symm
  rw [hslots, hsize, List.range_eq_range', List.range'_succ]

end Merger

/-! ### The second pass -/

namespace UseGraph.Rebuildable

open Merger

variable {g : UseGraph} {id : Nat} {n : Node} (hg : g.Rebuildable)

include hg

/-- A node of the graph is placed in the slot of its id. -/
theorem slotOf_merged (hid : id < g.size) : (Merger.empty.mergeSound g.toBatch).slotOf id = id := by
  rw [Merged.slotOf, placed_mergeSound, (rebuilds_foldl_sighted hg).2, List.getElem?_toArray,
    List.getElem?_range hid, Option.getD_some]

theorem map_slotOf_merged {ts : List Nat} (hts : ∀ t ∈ ts, t < g.size) :
    ts.map (Merger.empty.mergeSound g.toBatch).slotOf = ts :=
  (List.map_congr_left fun t ht ↦ hg.slotOf_merged (hts t ht)).trans (List.map_id ts)

/-- **The second pass gives every node its edges back.** -/
theorem node_merged (hn : g.node? id = some n) :
    (Merger.empty.mergeSound g.toBatch).merger.node id = n := by
  obtain ⟨hfirst, -⟩ := rebuilds_foldl_sighted hg
  let nodeOf (id : Nat) : Node := (g.node? id).getD Node.root
  have hnodeOf {id : Nat} {n : Node} (hn : g.node? id = some n) : nodeOf id = n := by
    show (g.node? id).getD Node.root = n
    rw [hn, Option.getD_some]
  have hnodes : g.toBatch.nodes = (List.range g.size).map nodeOf := by
    refine List.ext_getElem? fun index ↦ ?_
    rw [getElem?_toBatch, List.getElem?_map]
    rcases Nat.lt_or_ge index g.size with hlt | hge
    · obtain ⟨k, hk⟩ := exists_node? hlt
      rw [hk, List.getElem?_range hlt, Option.map_some, hnodeOf hk]
    · rw [List.getElem?_eq_none (by rwa [List.length_range]), Option.map_none]
      exact Array.getElem?_eq_none hge
  have hplaced :
      ∀ slot ∈ List.range g.size, slot < (g.toBatch.nodes.foldl sighted Merger.empty).slots.size
        ∧ (g.toBatch.nodes.foldl sighted Merger.empty).forest.find
          ((Merger.empty.mergeSound g.toBatch).slotOf (nodeOf slot).id) = slot := by
    intro slot hslot
    have hlt := List.mem_range.mp hslot
    obtain ⟨k, hk⟩ := exists_node? hlt
    rw [hfirst.size_eq, hfirst.find_eq, hnodeOf hk, hg.id_eq hk]
    exact ⟨hlt, hg.slotOf_merged hlt⟩
  have hconnected := node_connectAll List.nodup_range hplaced id
  rw [if_pos (List.mem_range.mpr (lt_size_of_node? hn)), ← hnodes, ← merger_mergeSound,
    hfirst.node_eq (lt_size_of_node? hn) hn, hnodeOf hn,
    hg.map_slotOf_merged fun t ht ↦ hg.target_lt hn (List.mem_append_left _ ht),
    hg.map_slotOf_merged fun t ht ↦ hg.target_lt hn (List.mem_append_right _ ht)] at hconnected
  exact hconnected

/-- Every slot is its own declaration afterwards. -/
theorem representatives_merged :
    (Merger.empty.mergeSound g.toBatch).merger.forest.representatives = List.range g.size := by
  obtain ⟨hfirst, -⟩ := rebuilds_foldl_sighted hg
  rw [Forest.representatives, (wellFormed_empty.mergeSound g.toBatch).size_forest,
    merger_mergeSound, size_slots_connectAll, hfirst.size_eq, List.filter_eq_self]
  intro slot _
  rw [forest_connectAll, Forest.isRepresentative, hfirst.find_eq, beq_self_eq_true]

/-- So slots are ids. -/
theorem rank_merged (hid : id < g.size) :
    (Merger.empty.mergeSound g.toBatch).merger.forest.rank id = id :=
  Forest.rank_of_getElem?_representatives (hg.representatives_merged ▸ List.getElem?_range hid)

theorem map_rank_merged {ts : List Nat} (hts : ∀ t ∈ ts, t < g.size) :
    ts.map (Merger.empty.mergeSound g.toBatch).merger.forest.rank = ts :=
  (List.map_congr_left fun t ht ↦ hg.rank_merged (hts t ht)).trans (List.map_id ts)

/-- **Merging the nodes of the graph into an empty merger gives them back.** -/
theorem nodes_rebuilt : (Merger.empty.mergeSound g.toBatch).merger.graph.nodes = g.nodes := by
  refine Array.ext_getElem? fun id ↦ ?_
  show (Merger.empty.mergeSound g.toBatch).merger.graph.node? id = g.node? id
  rw [(wellFormed_empty.mergeSound g.toBatch).node?_graph, hg.representatives_merged]
  rcases Nat.lt_or_ge id g.size with hlt | hge
  · obtain ⟨n, hn⟩ := exists_node? hlt
    rw [List.getElem?_range hlt, Option.map_some, hn, declaration, hg.node_merged hn,
      hg.rank_merged hlt, hg.map_rank_merged fun t ht ↦ hg.target_lt hn (List.mem_append_left _ ht),
      hg.map_rank_merged fun t ht ↦ hg.target_lt hn (List.mem_append_right _ ht), ← hg.id_eq hn]
  · rw [List.getElem?_eq_none (by rwa [List.length_range]), Option.map_none]
    exact (Array.getElem?_eq_none hge).symm

/-- **A graph that can be rebuilt is rebuilt**, node by node. -/
theorem exists_rebuilt :
    ∃ rebuilt, (ofBatches [g.toBatch]).result = .ok rebuilt ∧ rebuilt.nodes = g.nodes := by
  have hmerge : Merger.empty.merge g.toBatch = .ok (Merger.empty.mergeSound g.toBatch) :=
    merge_eq_ok_iff.mpr ⟨hg.accepted, rfl⟩
  exact ⟨_, ofBatches_eq_ok_iff.mpr ⟨_, _, rfl, .cons hmerge (.nil _), rfl⟩, hg.nodes_rebuilt⟩

end UseGraph.Rebuildable

/-! ### Graphs of runs -/

namespace Merger

variable {m : Merger} {steps : List Step}

/-- **A run changes nothing about the slot of the root but its edges.** -/
theorem Runs.unlinked_root (run : empty.Runs steps m) : (m.node 0).unlinked = graphRoot := by
  let P (m : Merger) (_ : List Sighting) : Prop := (m.node 0).unlinked = graphRoot
  have hstart : P empty [] := rfl
  refine run.preserves wellFormed_empty hstart (fun {m past s n} _ _ hm h ↦ ?_)
    fun {m past slot uses owns} _ hslot h ↦ ?_
  · have hroot : (m.sighted n).node 0 = _ := node_root_settleAs hm (m.recognises n)
    show ((m.sighted n).node 0).unlinked = graphRoot
    rw [hroot]
    exact h
  · show ((m.addEdges slot uses owns).node 0).unlinked = graphRoot
    rw [node_addEdges (Forest.find_lt hslot)]
    split <;> exact h

/-- **A declaration without identity has an ordinal**: the number of such declarations before it. -/
theorem Runs.roots_anonymousBefore (run : empty.Runs steps m) {id rep : Nat}
    (hrep : m.forest.representatives[id]? = some rep) (hnone : (m.node rep).hasIdentity = false) :
    m.anonymousRoots[m.graph.anonymousBefore id]? = some rep := by
  have hm := run.wellFormed wellFormed_empty
  have hbefore : m.graph.anonymousBefore id
      = (m.forest.representatives.take id).countP fun rep ↦ !(m.node rep).hasIdentity := by
    rw [UseGraph.anonymousBefore, hm.nodes_graph, List.toList_toArray, ← List.map_take,
      List.countP_map]
    rfl
  rw [hbefore, ← Array.getElem?_toList, run.roots_eq_filter]
  exact getElem?_filter_countP hrep (by rw [hnone]; rfl)

/-- **A declaration shows an ordinal just for want of an identity**: the number of such declarations
before it. -/
theorem Runs.subgraph_eq (run : empty.Runs steps m)
    (hord : ∀ s ∈ steps, ∀ n ∈ s.batch.nodes, n.subgraph = none) {id : Nat} {n : Node}
    (hn : m.graph.node? id = some n) :
    n.subgraph = if n.hasIdentity then none else some (m.graph.anonymousBefore id) := by
  have hm := run.wellFormed wellFormed_empty
  have hshows := run.recognisable
  rw [hm.node?_graph] at hn
  obtain ⟨rep, hrep, rfl⟩ := Option.map_eq_some_iff.mp hn
  show (m.node rep).subgraph
    = if (m.node rep).hasIdentity then none else some (m.graph.anonymousBefore id)
  split
  next hidentity =>
    -- an ordinal would be that of an anonymous root
    refine Option.eq_none_iff_forall_ne_some.mpr fun o ho ↦ ?_
    have hroot := Array.mem_of_getElem? (run.unnumbered hord o rep ho)
    rw [hm.hasIdentity_root hshows hroot] at hidentity
    cases hidentity
  next hidentity =>
    exact hshows.ordinal_eq
      (run.roots_anonymousBefore hrep (Bool.eq_false_of_not_eq_true hidentity))

/-- **The graph of a run without ordinals can be rebuilt from its nodes.** -/
theorem Runs.rebuildable (run : empty.Runs steps m)
    (hord : ∀ s ∈ steps, ∀ n ∈ s.batch.nodes, n.subgraph = none) : m.graph.Rebuildable where
  toWellFormed := (run.wellFormed wellFormed_empty).wellFormed_graph
  exists_root := by
    have hm := run.wellFormed wellFormed_empty
    refine ⟨m.declaration 0, hm.node?_graph_zero, ?_⟩
    calc (m.declaration 0).unlinked
        = { (m.node 0).unlinked with id := m.forest.rank 0 } := rfl
      _ = graphRoot := by
        rw [run.unlinked_root, hm.rank_zero]
        rfl
  path_eq {id n} hn := by
    obtain ⟨rep, -, -, -, rfl⟩ := (run.wellFormed wellFormed_empty).exists_representative hn
    exact run.recognisable.path_eq rep
  subgraph_eq := run.subgraph_eq hord
  eq_of_shared := (run.wellFormed wellFormed_empty).eq_of_shared_identity run.recognisable

end Merger

/-- **Exporting a finished graph and rebuilding it gives the same nodes.** When accepted batches
without ordinals are merged, the nodes of their graph can be merged into an empty merger, and every
node of the graph that comes of it is the node of the first graph with the same id: in its name and
kind, its path, position and named type, the lists of its edges in their order, and its ordinal. -/
theorem UseGraph.nodes_ofBatches_toBatch {bs : List Batch} (hcheck : ∀ b ∈ bs, b.check = .ok ())
    (hord : ∀ b ∈ bs, ∀ n ∈ b.nodes, n.subgraph = none) :
    ∃ g, (UseGraph.ofBatches bs).result = .ok g
      ∧ ∃ rebuilt, (UseGraph.ofBatches [g.toBatch]).result = .ok rebuilt
      ∧ rebuilt.nodes = g.nodes := by
  obtain ⟨steps, m, rfl, run, hg⟩ := UseGraph.exists_run_ofBatches hcheck
  exact ⟨m.graph, hg, (run.rebuildable fun s hs ↦ hord _ (List.mem_map_of_mem hs)).exists_rebuilt⟩

/-- The graph of three batches with roots that have no identity is rebuilt with their ordinals. -/
theorem UseGraph.nodes_toBatch_bridged : (∀ b ∈ bridged, b.check = .ok ())
    ∧ (∀ b ∈ bridged, ∀ n ∈ b.nodes, n.subgraph = none)
    ∧ ∃ g, (UseGraph.ofBatches bridged).result = .ok g
      ∧ ∃ rebuilt, (UseGraph.ofBatches [g.toBatch]).result = .ok rebuilt
      ∧ rebuilt.nodes = g.nodes :=
  ⟨check_bridged, by decide, UseGraph.nodes_ofBatches_toBatch check_bridged (by decide)⟩

end DeclExtract
