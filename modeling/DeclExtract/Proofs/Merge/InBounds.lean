import DeclExtract.Proofs.Lists
import DeclExtract.Proofs.Merge.Consistency
import DeclExtract.Proofs.Merge.Remerge

/-!
# Nothing outside the tables is asked for

The functions of a merger are total. Where a table has no entry, a lookup reads a default and a
change changes nothing: a slot outside the forest is its own parent, a slot that is not there is
blank, a local id that was not placed has the slot of the root, a slot without a rank has the first
one. None of this is ever needed.

To say so, each function on the way from a batch to a graph is read a second time, strictly. In the
strict reading (`Merger.merge?`, `Merger.graph?`) a lookup or a change outside a table makes the
whole computation fail. The strict readings of what a run has come to do not fail, and they say what
the functions say (`Runs.inBounds`):

* a walk starts at a slot of the forest, since indexes and ordinals lead to slots, and parents
  descend (`Forest.find?_eq`);
* a node is registered for a slot that is there, and two slots that are there are joined
  (`WellFormed.settleAs?_eq`);
* in an accepted batch the id of a node and the targets of its edges are local ids, all of which
  have been placed by the second pass (`Merging.connect?_eq`);
* every slot has a rank, so the edges and the indexes of a graph can be numbered
  (`WellFormed.graph?_eq`).
-/

namespace DeclExtract

/-! ### Computations that may fail -/

section Strict

variable {α β : Type}

/-- A loop that fails at none of the states that it comes to is a fold. -/
theorem foldlM_eq_some_foldl {P : β → Prop} {f : β → α → Option β} {g : β → α → β}
    {xs : List α} {b : β} (hstart : P b)
    (h : ∀ x ∈ xs, ∀ {b}, P b → f b x = some (g b x) ∧ P (g b x)) :
    xs.foldlM f b = some (xs.foldl g b) ∧ P (xs.foldl g b) := by
  induction xs generalizing b with
  | nil => exact ⟨rfl, hstart⟩
  | cons x xs ih =>
    obtain ⟨hfirst, hnext⟩ := h x List.mem_cons_self hstart
    rw [List.foldlM_cons, hfirst]
    exact ih hnext fun y hy ↦ h y (List.mem_cons_of_mem _ hy)

end Strict

/-! ### The strict readings -/

namespace Forest

/-- The strict reading of `find`: the walk fails where the table of parents has no entry, and where
a parent exceeds its child. -/
def find? (f : Forest) (slot : Nat) : Option Nat :=
  match f.parents[slot]? with
  | none => none
  | some parent =>
    if parent < slot then f.find? parent else if parent = slot then some slot else none
termination_by slot

/-- The strict reading of `ranks`. -/
def ranks? (f : Forest) : Option (Array Nat) := do
  let ranks ← (List.range f.size).mapM fun slot ↦ do
    let rep ← f.find? slot
    f.countsBelow[rep]?
  return ranks.toArray

end Forest

namespace Merger

/-- The strict reading of the walk from the slot that an index has, if it has one. -/
def walk? (m : Merger) : Option Nat → Option (Option Nat)
  | none => some none
  | some slot => (m.forest.find? slot).map some

/-- The strict reading of `recognise`. -/
def recognise? (m : Merger) (n : Node) : Option Recognition :=
  match n.subgraph.bind fun o ↦ m.anonymousRoots[o]?.map fun slot ↦ (slot, o) with
  | some (slot, ordinal) => (m.forest.find? slot).map fun rep ↦ .root rep ordinal
  | none => do
    let path ← m.walk? (n.stablePath.bind fun p ↦ m.byPath[p]?)
    let position ← m.walk? (n.stablePosition.bind fun p ↦ m.byPosition[p]?)
    return match path, position with
      | some a, some b => .both a b
      | some a, none => .path a
      | none, some b => .position b
      | none, none => .fresh

/-- The strict reading of `register`, which changes a slot. -/
def register? (m : Merger) (n : Node) (slot : Nat) : Option Merger :=
  if slot < m.slots.size then some (m.register n slot) else none

/-- The strict reading of `unify`, which changes a parent and two slots. -/
def unify? (m : Merger) (a b : Nat) : Option Merger :=
  if max a b < m.forest.size ∧ max a b < m.slots.size ∧ min a b < m.slots.size then
    some (m.unify a b)
  else none

/-- The strict reading of `allocate`, which changes the slot of the root and the new one. -/
def allocate? (m : Merger) (n : Node) : Option Merger :=
  let extended := m.extend n
  if 0 < extended.slots.size then extended.register? n m.slots.size else none

/-- The strict reading of `settleAs`. -/
def settleAs? (m : Merger) (n : Node) : Recognition → Option (Merger × Nat)
  | .root slot _ => some (m, slot)
  | .both a b => if a = b then some (m, a) else (m.unify? a b).map fun m ↦ (m, min a b)
  | .path slot => (m.register? n slot).map fun m ↦ (m, slot)
  | .position slot => (m.register? n slot).map fun m ↦ (m, slot)
  | .fresh =>
    let slot := m.slots.size
    (m.allocate? n).map fun m ↦ (m, slot)

/-- The strict reading of `addEdges`, which changes the slot at the end of a walk. -/
def addEdges? (m : Merger) (slot : Nat) (uses owns : List Nat) : Option Merger := do
  let rep ← m.forest.find? slot
  if rep < m.slots.size then some (m.addEdges slot uses owns) else none

end Merger

namespace Merging

/-- The strict reading of `sight`. -/
def sight? (s : Merging) (n : Node) : Option Merging := do
  let recognition ← s.merger.recognise? n
  let (merger, slot) ← s.merger.settleAs? n recognition
  return {
    merger
    report := recognition.count s.report n
    placed := s.placed.push slot
    events := s.events.push (recognition.event n slot) }

/-- The strict reading of `connect`. -/
def connect? (s : Merging) (m : Merger) (n : Node) : Option Merger := do
  let slot ← s.placed[n.id]?
  let uses ← n.uses.mapM fun t ↦ s.placed[t]?
  let owns ← n.owns.mapM fun t ↦ s.placed[t]?
  m.addEdges? slot uses owns

end Merging

namespace Merger

/-- The strict reading of `mergeSound`. -/
def mergeSound? (m : Merger) (b : Batch) : Option Merged := do
  let s ← b.nodes.foldlM Merging.sight? (Merging.start m)
  let merger ← b.nodes.foldlM s.connect? s.merger
  return {
    merger
    report := s.report
    placed := s.placed
    events := s.events.toList ++
      [.batchMerged b.size s.report.added s.report.byPath s.report.byPosition s.report.unified] }

/-- The strict reading of `merge`. -/
def merge? (m : Merger) (b : Batch) : Option (Except Error Merged) :=
  match b.check with
  | .ok () => (m.mergeSound? b).map .ok
  | .error e => some (.error e)

/-- The strict reading of `declaration`, with the ranks looked up in their table. -/
def declaration? (m : Merger) (ranks : Array Nat) (rep : Nat) : Option Node := do
  let n ← m.slots[rep]?
  let id ← ranks[rep]?
  let uses ← n.uses.mapM fun t ↦ ranks[t]?
  let owns ← n.owns.mapM fun t ↦ ranks[t]?
  return { n with id, uses, owns }

/-- The strict reading of `graph`. -/
def graph? (m : Merger) : Option UseGraph := do
  let ranks ← m.forest.ranks?
  let nodes ← m.forest.representatives.mapM (m.declaration? ranks)
  if m.byPath.all (fun _ slot ↦ slot < ranks.size)
      && m.byPosition.all (fun _ slot ↦ slot < ranks.size) then
    return {
      nodes := nodes.toArray
      byPath := m.byPath.map fun _ slot ↦ ranks[slot]?.getD 0
      byPosition := m.byPosition.map fun _ slot ↦ ranks[slot]?.getD 0 }
  else none

end Merger

/-! ### Walks -/

namespace Forest

variable {f : Forest} {slot : Nat}

/-- **A walk from a slot of the forest stays in the forest.** -/
theorem Descending.find?_eq (h : f.Descending) (hslot : slot < f.size) :
    f.find? slot = some (f.find slot) := by
  fun_induction find f slot with
  | case1 slot hlt ih =>
    rw [find?, exists_parent hslot]
    dsimp only
    rw [if_pos hlt]
    exact ih (Nat.lt_trans hlt hslot)
  | case2 slot hstuck =>
    have hle := h slot
    have hself : f.parent slot = slot := by omega
    rw [find?, exists_parent hslot, hself]
    dsimp only
    rw [if_neg (Nat.lt_irrefl slot), if_pos rfl]

/-- The table of ranks can be filled. -/
theorem Descending.ranks?_eq (h : f.Descending) : f.ranks? = some f.ranks := by
  have hrank : ∀ slot ∈ List.range f.size,
      (do let rep ← f.find? slot; f.countsBelow[rep]?)
        = some (f.countsBelow[f.find slot]?.getD 0) := by
    intro slot hslot
    rw [List.mem_range] at hslot
    rw [h.find?_eq hslot, Option.bind_eq_bind, Option.bind_some,
      getElem?_countsBelow (find_lt hslot), Option.getD_some]
  rw [ranks?, mapM_eq_some_map hrank, ranks, ← List.toArray_range, List.map_toArray]
  rfl

end Forest

namespace Merger

variable {m m' : Merger} {n : Node} {r : Recognition} {b : Batch} {steps : List Step} {slot : Nat}

/-! ### One node -/

namespace WellFormed

variable (hm : m.WellFormed) (h : m.forest.Descending)

include hm

theorem unify?_eq {a b : Nat} (ha : a < m.slots.size) (hb : b < m.slots.size) :
    m.unify? a b = some (m.unify a b) := by
  have hmax : max a b < m.slots.size := Nat.max_lt.mpr ⟨ha, hb⟩
  exact if_pos ⟨hm.size_forest ▸ hmax, hmax, Nat.lt_of_le_of_lt (Nat.min_le_left a b) ha⟩

omit hm in
theorem allocate?_eq (m : Merger) (n : Node) : m.allocate? n = some (m.allocate n) := by
  have hsize := m.size_slots_extend n
  rw [allocate?, if_pos (by omega), register?, if_pos (by omega)]
  rfl

/-- **Whatever a node was recognised as is there to be changed.** -/
theorem settleAs?_eq (hr : Recognises m n r) : m.settleAs? n r = some (m.settleAs n r) := by
  have hregister {a : Nat} (hcand : m.candidates n = [a]) :
      m.register? n a = some (m.register n a) :=
    if_pos (hm.of_candidate (n := n) (c := a) (by simp [hcand])).1
  cases hr with
  | root => rfl
  | @both a b hcand =>
    obtain ⟨⟨ha, -⟩, hb, -⟩ := of_candidates_eq hm hcand
    rw [settleAs?, Merger.settleAs]
    split
    next => rfl
    next => rw [hm.unify?_eq ha hb, Option.map_some]
  | path hcand => rw [settleAs?, hregister hcand, Option.map_some, Merger.settleAs]
  | position hcand => rw [settleAs?, hregister hcand, Option.map_some, Merger.settleAs]
  | fresh => rw [settleAs?, allocate?_eq, Option.map_some, Merger.settleAs]

include h

/-- **Ordinals and identities lead to slots of the forest.** -/
theorem recognise?_eq (n : Node) : m.recognise? n = some (m.recognise n) := by
  have hfind {slot : Nat} (hslot : slot < m.slots.size) :
      m.forest.find? slot = some (m.forest.find slot) := h.find?_eq (hm.size_forest ▸ hslot)
  have hwalk {i : Identity} : m.walk? (m.indexed? i) = some (m.known? i) := by
    cases hi : m.indexed? i with
    | none => rw [walk?, known?_eq_none_iff.mpr hi]
    | some slot =>
      rw [walk?, hfind (hm.indexed_lt hi), Option.map_some, known?, hi, Option.map_some]
  have hpath :
      m.walk? (n.stablePath.bind fun p ↦ m.byPath[p]?) = some (n.stablePath.bind m.atPath?) := by
    cases hp : n.stablePath with
    | none => rfl
    | some p => exact hwalk (i := .path p)
  have hposition : m.walk? (n.stablePosition.bind fun p ↦ m.byPosition[p]?)
      = some (n.stablePosition.bind m.atPosition?) := by
    cases hp : n.stablePosition with
    | none => rfl
    | some p => exact hwalk (i := .position p)
  cases hroot : n.subgraph.bind fun o ↦ m.anonymousRoots[o]?.map fun slot ↦ (slot, o) with
  | some hit =>
    obtain ⟨o, hord, hhit⟩ := Option.bind_eq_some_iff.mp hroot
    obtain ⟨slot, hslot, rfl⟩ := Option.map_eq_some_iff.mp hhit
    have hat : m.atOrdinal? o = some (m.forest.find slot) := by
      rw [atOrdinal?, hslot, Option.map_some]
    rw [recognise?, hroot, recognise_of_ordinal hord hat]
    dsimp only
    rw [hfind (hm.root_lt (Array.mem_of_getElem? hslot)), Option.map_some]
  | none =>
    have hnone : (n.subgraph.bind fun o ↦ (m.atOrdinal? o).map fun slot ↦ (slot, o)) = none := by
      cases hord : n.subgraph with
      | none => rfl
      | some o => simpa [hord, atOrdinal?] using hroot
    rw [recognise?, recognise, hroot, hnone, hpath, hposition]
    rfl

theorem addEdges?_eq {uses owns : List Nat} (hslot : slot < m.slots.size) :
    m.addEdges? slot uses owns = some (m.addEdges slot uses owns) := by
  have hrep : m.forest.find slot < m.slots.size := Forest.find_lt hslot
  rw [addEdges?, h.find?_eq (hm.size_forest ▸ hslot)]
  exact if_pos hrep

end WellFormed

end Merger

/-! ### A batch -/

namespace Merging

variable {s : Merging} {m : Merger} {n : Node}

theorem sight?_eq (hm : s.merger.WellFormed) (h : s.merger.forest.Descending) (n : Node) :
    s.sight? n = some (s.sight n) := by
  rw [sight?, hm.recognise?_eq h, Option.bind_eq_bind, Option.bind_some,
    hm.settleAs?_eq (s.merger.recognises n)]
  rfl

/-- **The first pass fails nowhere**, since what it starts with it keeps. -/
theorem foldlM_sight?_eq (hm : s.merger.WellFormed) (h : s.merger.forest.Descending)
    (ns : List Node) : ns.foldlM sight? s = some (ns.foldl sight s)
      ∧ (ns.foldl sight s).merger.WellFormed ∧ (ns.foldl sight s).merger.forest.Descending := by
  let P (s : Merging) : Prop := s.merger.WellFormed ∧ s.merger.forest.Descending
  have hstart : P s := ⟨hm, h⟩
  refine foldlM_eq_some_foldl hstart fun n _ {s} ⟨hm, h⟩ ↦ ⟨s.sight?_eq hm h n, hm.sighted n, ?_⟩
  exact Merger.descending_settleAs h hm (s.merger.recognises n)

/-- **The edges of a node lead from its slot to slots**, if its id and their targets have been
placed. -/
theorem connect?_eq (hm : m.WellFormed) (h : m.forest.Descending)
    (hplaced : ∀ t, t = n.id ∨ t ∈ n.targets → s.placed[t]? = some (s.slotOf t))
    (hslot : s.slotOf n.id < m.slots.size) : s.connect? m n = some (s.connect m n) := by
  have huses : n.uses.mapM (fun t ↦ s.placed[t]?) = some (n.uses.map s.slotOf) :=
    mapM_eq_some_map fun t ht ↦ hplaced t (Or.inr (List.mem_append_left _ ht))
  have howns : n.owns.mapM (fun t ↦ s.placed[t]?) = some (n.owns.map s.slotOf) :=
    mapM_eq_some_map fun t ht ↦ hplaced t (Or.inr (List.mem_append_right _ ht))
  rw [connect?, hplaced n.id (Or.inl rfl), huses, howns]
  exact hm.addEdges?_eq h hslot

/-- **The second pass fails nowhere**, since it adds no slots and changes no parents. -/
theorem foldlM_connect?_eq {ns : List Node} (hm : m.WellFormed) (h : m.forest.Descending)
    (hplaced : ∀ n ∈ ns, ∀ t, t = n.id ∨ t ∈ n.targets → s.placed[t]? = some (s.slotOf t))
    (hslot : ∀ localId, s.slotOf localId < m.slots.size) :
    ns.foldlM s.connect? m = some (ns.foldl s.connect m) := by
  let P (m' : Merger) : Prop := m'.WellFormed ∧ m'.forest.Descending ∧ m'.slots.size = m.slots.size
  have hstart : P m := ⟨hm, h, rfl⟩
  refine (foldlM_eq_some_foldl (P := P) (g := s.connect) hstart
    fun n hn {m'} ⟨hm', h', hsize⟩ ↦ ⟨?_, ?_, h', ?_⟩).1
  · exact connect?_eq hm' h' (hplaced n hn) (hsize ▸ hslot n.id)
  · exact hm'.connected (fun localId ↦ hsize ▸ hslot localId) n
  · exact (m'.size_slots_addEdges _ _ _).trans hsize

end Merging

namespace Merger

variable {m m' : Merger} {b : Batch} {steps : List Step}

namespace WellFormed

variable (hm : m.WellFormed) (h : m.forest.Descending)

include hm h

/-- **Merging an accepted batch asks for nothing that is not there.** -/
theorem mergeSound?_eq (hb : b.Accepted) : m.mergeSound? b = some (m.mergeSound b) := by
  let s := b.nodes.foldl Merging.sight (Merging.start m)
  obtain ⟨hfirst, hwellFormed, hdescending⟩ :
      b.nodes.foldlM Merging.sight? (Merging.start m) = some s
        ∧ s.merger.WellFormed ∧ s.merger.forest.Descending := Merging.foldlM_sight?_eq hm h b.nodes
  -- by the second pass every local id has been placed
  have hsize : s.placed.size = b.size := by
    rw [show s.placed = _ from m.placed_mergeSound b, List.size_toArray, List.length_map,
      length_sightings]
    rfl
  have hplaced {localId : Nat} (hlt : localId < b.size) :
      s.placed[localId]? = some (s.slotOf localId) := by
    rw [Merging.slotOf, Array.getElem?_eq_getElem (hsize ▸ hlt), Option.getD_some]
  have hslot (localId : Nat) : s.slotOf localId < s.merger.slots.size := by
    rw [show s.merger = _ from congrArg Merging.merger (foldl_sight _ b.nodes)]
    exact slotOf_lt hm b localId
  have hsecond : b.nodes.foldlM s.connect? s.merger = some (b.nodes.foldl s.connect s.merger) := by
    refine Merging.foldlM_connect?_eq hwellFormed hdescending (fun n hn t ht ↦ hplaced ?_) hslot
    rcases ht with rfl | ht
    · obtain ⟨index, hindex⟩ := List.mem_iff_getElem?.mp hn
      exact hb.id_eq hindex ▸ (List.getElem?_eq_some_iff.mp hindex).1
    · exact hb.target_lt hn ht
  rw [mergeSound?, hfirst, Option.bind_eq_bind, Option.bind_some, hsecond]
  rfl

/-- Merging a batch asks for nothing that is not there, whether it is accepted or refused. -/
theorem merge?_eq (b : Batch) : m.merge? b = some (m.merge b) := by
  rw [merge?, merge]
  cases hcheck : b.check with
  | ok u =>
    dsimp only
    rw [hm.mergeSound?_eq h (Batch.check_eq_ok_iff.mp hcheck), Option.map_some]
  | error e => rfl

omit h in
/-- What a slot holds can be numbered. -/
theorem declaration?_eq {rep : Nat} (hrep : rep < m.slots.size) :
    m.declaration? m.forest.ranks rep = some (m.declaration rep) := by
  have hnode : m.slots[rep]? = some (m.node rep) := by
    rw [node, Array.getElem?_eq_getElem hrep, Option.getD_some]
  have huses : (m.node rep).uses.mapM (fun t ↦ m.forest.ranks[t]?)
      = some ((m.node rep).uses.map m.forest.rank) :=
    mapM_eq_some_map fun t ht ↦ hm.getElem?_ranks (hm.target_lt (List.mem_append_left _ ht))
  have howns : (m.node rep).owns.mapM (fun t ↦ m.forest.ranks[t]?)
      = some ((m.node rep).owns.map m.forest.rank) :=
    mapM_eq_some_map fun t ht ↦ hm.getElem?_ranks (hm.target_lt (List.mem_append_right _ ht))
  rw [declaration?, hnode, hm.getElem?_ranks hrep]
  simp only [Option.bind_eq_bind, Option.bind_some, huses, howns]
  rfl

/-- **Taking the graph asks for nothing that is not there.** -/
theorem graph?_eq : m.graph? = some m.graph := by
  have hnodes : m.forest.representatives.mapM (m.declaration? m.forest.ranks)
      = some (m.forest.representatives.map m.declaration) :=
    mapM_eq_some_map fun rep hrep ↦ hm.declaration?_eq (hm.lt_of_mem_representatives hrep)
  have hindexed {i : Identity} {slot : Nat} (hslot : m.indexed? i = some slot) :
      decide (slot < m.forest.ranks.size) = true :=
    decide_eq_true (Array.getElem?_eq_some_iff.mp (hm.getElem?_ranks (hm.indexed_lt hslot))).1
  have hpath : m.byPath.all (fun _ slot ↦ slot < m.forest.ranks.size) = true :=
    Std.HashMap.all_eq_true_iff_forall_mem_getElem.mpr fun p hp ↦
      hindexed (i := .path p) (Std.HashMap.getElem?_eq_some_getElem hp)
  have hposition : m.byPosition.all (fun _ slot ↦ slot < m.forest.ranks.size) = true :=
    Std.HashMap.all_eq_true_iff_forall_mem_getElem.mpr fun p hp ↦
      hindexed (i := .position p) (Std.HashMap.getElem?_eq_some_getElem hp)
  rw [graph?, h.ranks?_eq]
  simp only [Option.bind_eq_bind, Option.bind_some, hnodes, ← hm.nodes_graph]
  rw [hpath, hposition]
  rfl

end WellFormed

/-- **Nothing outside the tables is asked for** when a batch is merged, and when the graph is
taken. -/
structure InBounds (m : Merger) : Prop where
  merge : ∀ b, m.merge? b = some (m.merge b)
  graph : m.graph? = some m.graph

/-- **A run comes to a merger in which nothing outside the tables is asked for**, whatever batch
comes next. -/
theorem Runs.inBounds (run : empty.Runs steps m) : m.InBounds where
  merge := (run.wellFormed wellFormed_empty).merge?_eq run.descending
  graph := (run.wellFormed wellFormed_empty).graph?_eq run.descending

end Merger

end DeclExtract
