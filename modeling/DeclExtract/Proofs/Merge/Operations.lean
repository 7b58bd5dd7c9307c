import Mathlib.Tactic.Common
import DeclExtract.Merge.Merger

/-!
# What the operations of a merger change

Each operation on a merger is described by what can be seen of a merger: the node in a slot
(`Merger.node`), the slot under which an identity was first seen (`Merger.indexed?`), the forest,
and the slots of the anonymous roots. Nothing after this module unfolds an operation.

* `register` fills in one slot and takes the identities that are still free;
* `unify` empties one slot into another and joins their classes;
* `extend` adds a slot, and one use to the root of the graph if the new node is the root of a batch;
* `allocate` adds a slot and registers the new node there;
* `addEdges` adds edges to the representative of a slot.

## Recognition

A node is recognised by its ordinal or else by the declarations that are known under its identities
(`Merger.candidates`). `Recognises` is the case analysis that the rest of the theory goes by: with
two candidates the node is known by both identities, with one by one of them, and with none it is
new.
-/

namespace DeclExtract

namespace Merger

variable {m : Merger} {n : Node} {i : Identity} {slot : Nat}

/-! ### Identities in the index -/

/-- The slot under which an identity was first seen. -/
def indexed? (m : Merger) : Identity → Option Nat
  | .path p => m.byPath[p]?
  | .position p => m.byPosition[p]?

/-- The declaration known under an identity. -/
def known? (m : Merger) (i : Identity) : Option Nat :=
  (m.indexed? i).map m.forest.find

@[simp] theorem known?_path (m : Merger) (p : ObjectPath) : m.known? (.path p) = m.atPath? p := rfl

@[simp] theorem known?_position (m : Merger) (p : Position) :
    m.known? (.position p) = m.atPosition? p := rfl

theorem known?_eq_none_iff : m.known? i = none ↔ m.indexed? i = none :=
  Option.map_eq_none_iff

/-! ### The empty merger -/

@[simp] theorem indexed?_empty (i : Identity) : empty.indexed? i = none := by
  cases i <;> simp [indexed?, empty]

theorem node_empty (slot : Nat) : empty.node slot = if slot = 0 then graphRoot else blank slot := by
  unfold node empty
  split
  · rename_i h
    simp [h]
  · rename_i h
    simp [h]

/-! ### Registering -/

@[simp] theorem forest_register (m : Merger) (n : Node) (slot : Nat) :
    (m.register n slot).forest = m.forest := rfl

@[simp] theorem anonymousRoots_register (m : Merger) (n : Node) (slot : Nat) :
    (m.register n slot).anonymousRoots = m.anonymousRoots := rfl

@[simp] theorem size_slots_register (m : Merger) (n : Node) (slot : Nat) :
    (m.register n slot).slots.size = m.slots.size := by
  simp [register]

theorem node_register (hslot : slot < m.slots.size) (s : Nat) :
    (m.register n slot).node s = if s = slot then complete (m.node s) n else m.node s := by
  unfold node register
  rw [Array.getElem?_modify]
  by_cases hs : slot = s
  · subst hs
    simp [hslot]
  · rw [if_neg hs, if_neg (Ne.symm hs)]

/-- An identity that was seen before keeps its slot; a free one is taken if the node has it. -/
theorem indexed?_register (m : Merger) (n : Node) (slot : Nat) (i : Identity) :
    (m.register n slot).indexed? i
      = (m.indexed? i).or (if i ∈ n.identities then some slot else none) := by
  cases i with
  | path p =>
    simp only [Node.path_mem_identities]
    unfold indexed? register
    cases hn : n.stablePath with
    | none => simp
    | some q => grind
  | position p =>
    simp only [Node.position_mem_identities]
    unfold indexed? register
    cases hn : n.stablePosition with
    | none => simp
    | some q => grind

/-! ### Joining two classes -/

@[simp] theorem forest_unify (m : Merger) (a b : Nat) :
    (m.unify a b).forest = m.forest.absorb (min a b) (max a b) := rfl

@[simp] theorem anonymousRoots_unify (m : Merger) (a b : Nat) :
    (m.unify a b).anonymousRoots = m.anonymousRoots := rfl

@[simp] theorem size_slots_unify (m : Merger) (a b : Nat) :
    (m.unify a b).slots.size = m.slots.size := by
  simp [unify]

@[simp] theorem indexed?_unify (m : Merger) (a b : Nat) (i : Identity) :
    (m.unify a b).indexed? i = m.indexed? i := by
  cases i <;> rfl

theorem node_unify {a b : Nat} (hne : a ≠ b) (ha : a < m.slots.size) (hb : b < m.slots.size)
    (s : Nat) :
    (m.unify a b).node s
      = if s = min a b then inherit (m.node (min a b)) (m.node (max a b))
        else if s = max a b then blank s else m.node s := by
  have hlt : min a b < max a b := by omega
  have hmax : max a b < m.slots.size := by omega
  have hmin : min a b < m.slots.size := by omega
  unfold unify
  conv_lhs => rw [node]
  rw [Array.getElem?_modify, Array.getElem?_setIfInBounds]
  by_cases hkeep : s = min a b
  · subst hkeep
    simp [Nat.ne_of_gt hlt, hmin, node]
  · rw [if_neg (Ne.symm hkeep), if_neg hkeep]
    by_cases hgone : s = max a b
    · subst hgone
      simp [hmax]
    · rw [if_neg (Ne.symm hgone), if_neg hgone]
      rfl

/-! ### Adding a slot -/

@[simp] theorem forest_extend (m : Merger) (n : Node) : (m.extend n).forest = m.forest.grow := rfl

@[simp] theorem anonymousRoots_extend (m : Merger) (n : Node) :
    (m.extend n).anonymousRoots
      = if n.hasIdentity then m.anonymousRoots else m.anonymousRoots.push m.slots.size := rfl

@[simp] theorem size_slots_extend (m : Merger) (n : Node) :
    (m.extend n).slots.size = m.slots.size + 1 := by
  unfold extend
  split <;> simp

@[simp] theorem indexed?_extend (m : Merger) (n : Node) (i : Identity) :
    (m.extend n).indexed? i = m.indexed? i := by
  cases i <;> rfl

/-- The new slot holds the new node; of the others only that of the root may change. -/
theorem node_extend (hpos : 0 < m.slots.size) (s : Nat) :
    (m.extend n).node s
      = if s = m.slots.size then m.settle n s
        else if s = 0 ∧ n.id = 0 then { m.node 0 with uses := (m.node 0).uses ++ [m.slots.size] }
        else m.node s := by
  unfold extend
  conv_lhs => rw [node]
  dsimp only
  by_cases hnew : s = m.slots.size
  · have hroot : (0 : Nat) ≠ s := by omega
    rw [if_pos hnew]
    split
    · rw [Array.getElem?_modify, if_neg hroot]
      simp [hnew]
    · simp [hnew]
  · rw [if_neg hnew]
    by_cases hid : n.id = 0
    · rw [if_pos hid, Array.getElem?_modify, Array.getElem?_push, if_neg hnew]
      by_cases hs : s = 0
      · subst hs
        simp [hid, hpos, node]
      · simp [hs, Ne.symm hs, node]
    · simp [hid, Array.getElem?_push, hnew, node]

/-! ### Adding a slot and registering it -/

@[simp] theorem forest_allocate (m : Merger) (n : Node) :
    (m.allocate n).forest = m.forest.grow := rfl

@[simp] theorem anonymousRoots_allocate (m : Merger) (n : Node) :
    (m.allocate n).anonymousRoots
      = if n.hasIdentity then m.anonymousRoots else m.anonymousRoots.push m.slots.size := rfl

@[simp] theorem size_slots_allocate (m : Merger) (n : Node) :
    (m.allocate n).slots.size = m.slots.size + 1 := by
  rw [allocate, size_slots_register, size_slots_extend]

theorem indexed?_allocate (m : Merger) (n : Node) (i : Identity) :
    (m.allocate n).indexed? i
      = (m.indexed? i).or (if i ∈ n.identities then some m.slots.size else none) := by
  rw [allocate, indexed?_register, indexed?_extend]

/-- The new slot holds the new node, completed by itself; of the others only that of the root may
change. -/
theorem node_allocate (hpos : 0 < m.slots.size) (s : Nat) :
    (m.allocate n).node s
      = if s = m.slots.size then complete (m.settle n s) n
        else if s = 0 ∧ n.id = 0 then { m.node 0 with uses := (m.node 0).uses ++ [m.slots.size] }
        else m.node s := by
  have hnew : m.slots.size < (m.extend n).slots.size := by
    rw [size_slots_extend]
    exact Nat.lt_succ_self _
  rw [allocate, node_register hnew, node_extend hpos]
  split <;> rfl

/-! ### Adding edges -/

@[simp] theorem forest_addEdges (m : Merger) (slot : Nat) (uses owns : List Nat) :
    (m.addEdges slot uses owns).forest = m.forest := rfl

@[simp] theorem anonymousRoots_addEdges (m : Merger) (slot : Nat) (uses owns : List Nat) :
    (m.addEdges slot uses owns).anonymousRoots = m.anonymousRoots := rfl

@[simp] theorem size_slots_addEdges (m : Merger) (slot : Nat) (uses owns : List Nat) :
    (m.addEdges slot uses owns).slots.size = m.slots.size := by
  simp [addEdges]

@[simp] theorem indexed?_addEdges (m : Merger) (slot : Nat) (uses owns : List Nat) (i : Identity) :
    (m.addEdges slot uses owns).indexed? i = m.indexed? i := by
  cases i <;> rfl

theorem node_addEdges {uses owns : List Nat} (hslot : m.forest.find slot < m.slots.size) (s : Nat) :
    (m.addEdges slot uses owns).node s
      = if s = m.forest.find slot then
          { m.node s with uses := (m.node s).uses ++ uses, owns := (m.node s).owns ++ owns }
        else m.node s := by
  unfold node addEdges
  rw [Array.getElem?_modify]
  by_cases hs : m.forest.find slot = s
  · subst hs
    simp [hslot]
  · rw [if_neg hs, if_neg (Ne.symm hs)]

/-! ### Recognising -/

/-- The declarations that are known under the identities of a node. -/
def candidates (m : Merger) (n : Node) : List Nat :=
  n.identities.filterMap m.known?

theorem mem_candidates {c : Nat} :
    c ∈ m.candidates n ↔ ∃ i ∈ n.identities, m.known? i = some c :=
  List.mem_filterMap

/-- **How a node can be recognised.** -/
inductive Recognises (m : Merger) (n : Node) : Recognition → Prop
  | root {slot ordinal : Nat} (hord : n.subgraph = some ordinal)
      (hslot : m.atOrdinal? ordinal = some slot) : Recognises m n (.root slot ordinal)
  | both {a b : Nat} (hcand : m.candidates n = [a, b])
      (hknown : ∀ i ∈ n.identities, m.known? i ≠ none) : Recognises m n (.both a b)
  | path {a : Nat} (hcand : m.candidates n = [a]) : Recognises m n (.path a)
  | position {a : Nat} (hcand : m.candidates n = [a]) : Recognises m n (.position a)
  | fresh (hcand : m.candidates n = []) : Recognises m n .fresh

theorem candidates_eq (m : Merger) (n : Node) :
    m.candidates n
      = (n.stablePath.bind m.atPath?).toList ++ (n.stablePosition.bind m.atPosition?).toList := by
  have hview {α : Type} (o : Option α) (f : α → Identity) :
      (o.map f).toList.filterMap m.known? = (o.bind fun x ↦ m.known? (f x)).toList := by
    cases o with
    | none => rfl
    | some x => cases hx : m.known? (f x) <;> simp [hx]
  rw [candidates, Node.identities, List.filterMap_append, hview, hview]
  rfl

/-- **Every node is recognised in one of these ways.** -/
theorem recognises (m : Merger) (n : Node) : Recognises m n (m.recognise n) := by
  have hcand := m.candidates_eq n
  unfold recognise
  split
  next slot ordinal hroot =>
    obtain ⟨o, hord, hat⟩ := Option.bind_eq_some_iff.mp hroot
    obtain ⟨s, hslot, heq⟩ := Option.map_eq_some_iff.mp hat
    obtain ⟨rfl, rfl⟩ := Prod.mk.inj heq
    exact .root hord hslot
  next =>
    split
    next a b ha hb =>
      rw [ha, hb] at hcand
      refine .both hcand fun i hi hnone ↦ ?_
      cases i with
      | path p => simp [Node.path_mem_identities.mp hi, ← known?_path, hnone] at ha
      | position p => simp [Node.position_mem_identities.mp hi, ← known?_position, hnone] at hb
    next a ha hb => exact .path (by rw [hcand, ha, hb]; rfl)
    next b ha hb => exact .position (by rw [hcand, ha, hb]; rfl)
    next ha hb => exact .fresh (by rw [hcand, ha, hb]; rfl)

/-- **A node is new when neither its ordinal nor any of its identities is known.** -/
theorem recognise_eq_fresh_iff : m.recognise n = .fresh ↔
    (∀ o, n.subgraph = some o → m.atOrdinal? o = none) ∧ m.candidates n = [] := by
  constructor
  · intro h
    refine ⟨fun o ho ↦ ?_, ?_⟩
    · rw [recognise, ho] at h
      cases hat : m.atOrdinal? o with
      | none => rfl
      | some slot => simp [hat] at h
    · have hr := m.recognises n
      rw [h] at hr
      cases hr with
      | fresh hcand => exact hcand
  · rintro ⟨hord, hcand⟩
    have hr := m.recognises n
    generalize m.recognise n = r at hr ⊢
    cases hr with
    | root hord' hslot =>
      rw [hord _ hord'] at hslot
      cases hslot
    | both hcand' | path hcand' | position hcand' =>
      rw [hcand] at hcand'
      cases hcand'
    | fresh => rfl

end Merger

end DeclExtract
