import DeclExtract.Proofs.Merge.Run
import DeclExtract.Proofs.UseGraph

/-!
# The graph of a merger

What the graph that is taken from a well-formed merger looks like, in terms of ranks: one node for
every representative in ascending order, with every slot in an edge or in the index replaced by its
rank (`nodes_graph`, `lookup_graph`). So the id of a declaration is the rank of any of its slots,
and the graph is well-formed. The table of ranks has a number for every slot that a run hands out
(`Runs.hasNumber`), so the number that stands in for a missing entry is never used.
-/

namespace DeclExtract

namespace Merger

variable {m : Merger} {i : Identity} {id slot : Nat}

/-- The node that a representative becomes in the graph. -/
def declaration (m : Merger) (rep : Nat) : Node :=
  { m.node rep with
    id := m.forest.rank rep
    uses := (m.node rep).uses.map m.forest.rank
    owns := (m.node rep).owns.map m.forest.rank }

@[simp] theorem targets_declaration (m : Merger) (rep : Nat) :
    (m.declaration rep).targets = (m.node rep).targets.map m.forest.rank :=
  (List.map_append).symm

/-- A node of the graph says what its representative says. -/
theorem agrees_declaration (m : Merger) (rep : Nat) : (m.declaration rep).Agrees (m.node rep) :=
  ⟨⟨rfl, rfl, rfl⟩, rfl⟩

/-- The table of ranks has a number for a slot, at which the representative of the slot stands. -/
def HasNumber (m : Merger) (slot id : Nat) : Prop :=
  m.forest.ranks[slot]? = some id ∧ m.forest.representatives[id]? = some (m.forest.find slot)

/-- Slots with one number are in one class. -/
theorem HasNumber.find_eq {other : Nat} (h : m.HasNumber slot id) (h' : m.HasNumber other id) :
    m.forest.find slot = m.forest.find other :=
  Option.some.inj (h.2.symm.trans h'.2)

namespace WellFormed

/-- The table of ranks has an entry for every slot of the merger. -/
theorem getElem?_ranks (h : m.WellFormed) (hslot : slot < m.slots.size) :
    m.forest.ranks[slot]? = some (m.forest.rank slot) :=
  Forest.getElem?_ranks (h.size_forest ▸ hslot)

theorem rank_lt (h : m.WellFormed) (hslot : slot < m.slots.size) :
    m.forest.rank slot < m.forest.classes :=
  Forest.rank_lt_classes (h.size_forest ▸ hslot)

theorem rank_inj (h : m.WellFormed) (hslot : slot < m.slots.size) {other : Nat} :
    m.forest.rank slot = m.forest.rank other ↔ m.forest.find slot = m.forest.find other :=
  Forest.rank_inj (h.size_forest ▸ hslot)

/-- The root of the graph comes first. -/
theorem rank_zero (h : m.WellFormed) : m.forest.rank 0 = 0 :=
  Forest.rank_zero (h.size_forest ▸ h.slots_pos)

/-- **The number of a slot is its rank.** -/
theorem hasNumber (h : m.WellFormed) (hslot : slot < m.slots.size) :
    m.HasNumber slot (m.forest.rank slot) :=
  ⟨h.getElem?_ranks hslot, Forest.getElem?_representatives_rank (h.size_forest ▸ hslot)⟩

/-- A slot has the number of another one when they are in one class. -/
theorem hasNumber_rank_iff (h : m.WellFormed) (hslot : slot < m.slots.size) {other : Nat} :
    m.HasNumber slot (m.forest.rank other) ↔ m.forest.find slot = m.forest.find other := by
  rw [← h.rank_inj hslot]
  constructor
  · intro hnumber
    have hentry := h.getElem?_ranks hslot
    rw [hnumber.1, Option.some_inj] at hentry
    exact hentry.symm
  · intro hrank
    exact hrank ▸ h.hasNumber hslot

theorem lt_of_mem_representatives (h : m.WellFormed) (hrep : slot ∈ m.forest.representatives) :
    slot < m.slots.size :=
  h.size_forest ▸ (Forest.mem_representatives.mp hrep).1

/-- **The nodes of the graph are the representatives**, in ascending order. -/
theorem nodes_graph (h : m.WellFormed) :
    m.graph.nodes = (m.forest.representatives.map m.declaration).toArray := by
  have hmap {slots : List Nat} (hlt : ∀ t ∈ slots, t < m.slots.size) :
      slots.map (fun slot ↦ m.forest.ranks[slot]?.getD 0) = slots.map m.forest.rank :=
    List.map_congr_left fun t ht ↦ by rw [h.getElem?_ranks (hlt t ht), Option.getD_some]
  unfold graph
  refine congrArg List.toArray (List.map_congr_left fun rep hrep ↦ ?_)
  dsimp only [declaration]
  rw [h.getElem?_ranks (h.lt_of_mem_representatives hrep), Option.getD_some,
    hmap fun t ht ↦ h.target_lt (List.mem_append_left _ ht),
    hmap fun t ht ↦ h.target_lt (List.mem_append_right _ ht)]

theorem size_graph (h : m.WellFormed) : m.graph.size = m.forest.classes := by
  rw [UseGraph.size, h.nodes_graph, List.size_toArray, List.length_map, Forest.classes]

theorem node?_graph (h : m.WellFormed) (id : Nat) :
    m.graph.node? id = m.forest.representatives[id]?.map m.declaration := by
  rw [UseGraph.node?, h.nodes_graph, List.getElem?_toArray, List.getElem?_map]

/-- **A node of the graph is the declaration of a representative**, and its id is the number of
that. -/
theorem exists_representative (h : m.WellFormed) {id : Nat} {n : Node}
    (hn : m.graph.node? id = some n) :
    ∃ rep, rep < m.slots.size ∧ m.forest.find rep = rep ∧ m.forest.rank rep = id
      ∧ n = m.declaration rep := by
  rw [h.node?_graph] at hn
  obtain ⟨rep, hrep, rfl⟩ := Option.map_eq_some_iff.mp hn
  have hmem := List.mem_of_getElem? hrep
  exact ⟨rep, h.lt_of_mem_representatives hmem, (Forest.mem_representatives.mp hmem).2,
    Forest.rank_of_getElem?_representatives hrep, rfl⟩

/-- The node at the rank of a slot is that of its representative. -/
theorem node?_graph_rank (h : m.WellFormed) (hslot : slot < m.slots.size) :
    m.graph.node? (m.forest.rank slot) = some (m.declaration (m.forest.find slot)) := by
  rw [h.node?_graph, Forest.getElem?_representatives_rank (h.size_forest ▸ hslot), Option.map_some]

/-- The node of the root of the graph. -/
theorem node?_graph_zero (h : m.WellFormed) : m.graph.node? 0 = some (m.declaration 0) := by
  have hnode := h.node?_graph_rank h.slots_pos
  rwa [h.rank_zero, Forest.find_zero] at hnode

/-- **An identity belongs to the declaration that it is indexed under.** -/
theorem lookup_graph (h : m.WellFormed) (i : Identity) :
    m.graph.lookup i = (m.indexed? i).map m.forest.rank := by
  have hmap (o : Option Nat) (hlt : ∀ slot, o = some slot → slot < m.slots.size) :
      o.map (fun slot ↦ m.forest.ranks[slot]?.getD 0) = o.map m.forest.rank :=
    Option.map_congr fun slot hslot ↦ by
      rw [h.getElem?_ranks (hlt slot hslot), Option.getD_some]
  cases i with
  | path p =>
    rw [UseGraph.lookup, graph, Std.HashMap.getElem?_map]
    exact hmap _ fun slot hslot ↦ h.indexed_lt (i := .path p) hslot
  | position p =>
    rw [UseGraph.lookup, graph, Std.HashMap.getElem?_map]
    split
    · exact hmap _ fun slot hslot ↦ h.indexed_lt (i := .position p) hslot
    next hcol =>
      have hnone : m.indexed? (.position p) = none := by
        by_contra hsome
        obtain ⟨slot, hslot⟩ := Option.ne_none_iff_exists'.mp hsome
        exact hcol (h.stable_of_indexed hslot)
      rw [hnone, Option.map_none]

theorem lookup_graph_known (h : m.WellFormed) (i : Identity) :
    m.graph.lookup i = (m.known? i).map m.forest.rank := by
  rw [h.lookup_graph, known?, Option.map_map]
  exact Option.map_congr fun slot _ ↦ (m.forest.rank_find slot).symm

/-- **The graph of a well-formed merger is well-formed.** -/
theorem wellFormed_graph (h : m.WellFormed) : m.graph.WellFormed where
  id_eq {id n} hn := by
    obtain ⟨rep, -, -, rfl, rfl⟩ := h.exists_representative hn
    rfl
  target_lt {id t n} hn ht := by
    obtain ⟨rep, -, -, -, rfl⟩ := h.exists_representative hn
    rw [targets_declaration] at ht
    obtain ⟨slot, hslot, rfl⟩ := List.mem_map.mp ht
    exact h.size_graph ▸ h.rank_lt (h.target_lt hslot)
  lookup_lt {i id} hid := by
    rw [h.lookup_graph] at hid
    obtain ⟨slot, hslot, rfl⟩ := Option.map_eq_some_iff.mp hid
    exact h.size_graph ▸ h.rank_lt (h.indexed_lt hslot)

end WellFormed

/-- Every slot that a run gave to a node has a number. -/
theorem Runs.hasNumber {steps : List Step} (run : empty.Runs steps m) {s : Step} (hs : s ∈ steps)
    (localId : Nat) :
    m.HasNumber (s.merged.slotOf localId) (m.forest.rank (s.merged.slotOf localId)) :=
  (run.wellFormed wellFormed_empty).hasNumber (run.slotOf_lt wellFormed_empty hs localId)

end Merger

/-- **Every finished graph is well-formed.** -/
theorem UseGraph.wellFormed_of_ofBatches {bs : List Batch} {g : UseGraph}
    (h : (UseGraph.ofBatches bs).result = .ok g) : g.WellFormed := by
  obtain ⟨steps, m, -, run, rfl⟩ := UseGraph.ofBatches_eq_ok_iff.mp h
  exact (run.wellFormed Merger.wellFormed_empty).wellFormed_graph

end DeclExtract
