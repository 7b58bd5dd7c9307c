import Mathlib.Order.MinMax
import DeclExtract.Proofs.Declaration
import DeclExtract.Proofs.Merge.Classes
import DeclExtract.Proofs.Merge.Operations

/-!
# Well-formed mergers

`Merger.WellFormed` is what holds of a merger at every moment of a run, in the middle of a batch as
well as between two. It has three parts.

* **Slots.** Each slot holds the node with its own number, an edge leads to a slot that is there,
  and a slot that was absorbed holds no edges any more.
* **Anonymous roots.** The root of the graph is the first of them. Each is alone in its class, and
  no identity is known under any of them, so none is ever absorbed.
* **The index.** It holds only identities that can tell declarations apart, and leads to slots that
  are there.

Each operation keeps the three under the conditions that a recognition provides
(`WellFormed.settleAs`). These conditions are stated once, for anything that the operations keep
(`WellFormed.settleAs_preserves`).
-/

namespace DeclExtract

namespace Merger

variable {m : Merger} {n : Node} {r : Recognition} {i : Identity} {slot other c : Nat}

@[simp] theorem targets_blank (slot : Nat) : (blank slot).targets = [] := rfl

@[simp] theorem targets_settle (m : Merger) (n : Node) (slot : Nat) :
    (m.settle n slot).targets = [] := rfl

theorem mem_targets_inherit {survivor absorbed : Node} {t : Nat} :
    t ∈ (inherit survivor absorbed).targets ↔ t ∈ survivor.targets ∨ t ∈ absorbed.targets := by
  simp only [inherit, Node.targets, List.mem_append]
  tauto

/-- A slot can be added without anything becoming known. -/
theorem known?_extend (m : Merger) (n : Node) (i : Identity) :
    (m.extend n).known? i = m.known? i := by
  rw [known?, indexed?_extend, known?]
  exact Option.map_congr fun s _ ↦ Forest.find_grow m.forest s

/-! ### The invariant -/

/-- **What holds of a merger at every moment of a run.** -/
structure WellFormed (m : Merger) : Prop where
  /-- The forest has the slots of the merger. -/
  size_forest : m.forest.size = m.slots.size
  /-- The first anonymous root is the root of the graph. -/
  first_root : m.anonymousRoots[0]? = some 0
  /-- No slot is the root of two ordinals. -/
  nodup_roots : m.anonymousRoots.toList.Nodup
  /-- The anonymous roots are slots of the merger. -/
  root_lt : ∀ {slot}, slot ∈ m.anonymousRoots → slot < m.slots.size
  /-- An anonymous root is alone in its class. -/
  find_eq_root :
    ∀ {slot other}, slot ∈ m.anonymousRoots → (m.forest.find other = slot ↔ other = slot)
  /-- Identities are known under slots of the merger. -/
  indexed_lt : ∀ {i slot}, m.indexed? i = some slot → slot < m.slots.size
  /-- No identity is known under an anonymous root. -/
  known_not_root : ∀ {i c}, m.known? i = some c → c ∉ m.anonymousRoots
  /-- An identity that is known can tell declarations apart. -/
  stable_of_indexed : ∀ {i slot}, m.indexed? i = some slot → i.isStable = true
  /-- A slot holds the node with its number. -/
  id_node : ∀ slot, (m.node slot).id = slot
  /-- Edges lead to slots of the merger. -/
  target_lt : ∀ {slot t}, t ∈ (m.node slot).targets → t < m.slots.size
  /-- An absorbed slot has no edges. -/
  targets_absorbed : ∀ {slot}, m.forest.find slot ≠ slot → (m.node slot).targets = []

theorem wellFormed_empty : empty.WellFormed where
  size_forest := rfl
  first_root := rfl
  nodup_roots := List.nodup_singleton 0
  root_lt {slot} hslot := by
    obtain rfl : slot = 0 := by simpa [empty] using hslot
    exact Nat.zero_lt_one
  find_eq_root {slot other} hslot := by
    obtain rfl : slot = 0 := by simpa [empty] using hslot
    rw [show empty.forest = Forest.empty.grow from rfl, Forest.find_grow,
      Forest.find_of_size_le (Nat.zero_le other)]
  indexed_lt hindexed := by rw [indexed?_empty] at hindexed; cases hindexed
  known_not_root hknown := by rw [known?, indexed?_empty] at hknown; cases hknown
  stable_of_indexed hindexed := by rw [indexed?_empty] at hindexed; cases hindexed
  id_node slot := by
    rw [node_empty]
    split
    · exact (‹slot = 0›).symm
    · rfl
  target_lt {slot t} ht := by
    rw [node_empty] at ht
    split at ht <;> cases ht
  targets_absorbed {slot} _ := by
    rw [node_empty]
    split <;> rfl

namespace WellFormed

theorem root_mem (h : m.WellFormed) : 0 ∈ m.anonymousRoots :=
  Array.mem_of_getElem? h.first_root

theorem slots_pos (h : m.WellFormed) : 0 < m.slots.size :=
  h.root_lt h.root_mem

theorem find_root (h : m.WellFormed) (hslot : slot ∈ m.anonymousRoots) :
    m.forest.find slot = slot :=
  (h.find_eq_root hslot).mpr rfl

/-- Ordinals lead to anonymous roots. -/
theorem atOrdinal?_eq (h : m.WellFormed) (o : Nat) : m.atOrdinal? o = m.anonymousRoots[o]? := by
  rw [atOrdinal?]
  cases hroot : m.anonymousRoots[o]? with
  | none => rfl
  | some slot => rw [Option.map_some, h.find_root (Array.mem_of_getElem? hroot)]

/-- An ordinal leads to the class of a slot just if it leads to the slot. -/
theorem root_find_iff {o : Nat} (h : m.WellFormed) :
    m.anonymousRoots[o]? = some (m.forest.find slot) ↔ m.anonymousRoots[o]? = some slot := by
  constructor
  · intro hroot
    rwa [← (h.find_eq_root (Array.mem_of_getElem? hroot)).mp rfl] at hroot
  · intro hroot
    rwa [h.find_root (Array.mem_of_getElem? hroot)]

/-- A slot has one ordinal at most. -/
theorem ordinal_inj {o o' : Nat} (h : m.WellFormed) (hroot : m.anonymousRoots[o]? = some slot)
    (hroot' : m.anonymousRoots[o']? = some slot) : o = o' := by
  rw [← Array.getElem?_toList] at hroot hroot'
  have hlt : o < m.anonymousRoots.toList.length := (List.getElem?_eq_some_iff.mp hroot).1
  exact (List.getElem?_inj hlt h.nodup_roots).mp (hroot.trans hroot'.symm)

/-- What is known under an identity is a representative, and no anonymous root. -/
theorem of_known (h : m.WellFormed) (hknown : m.known? i = some c) :
    c < m.slots.size ∧ m.forest.find c = c ∧ c ∉ m.anonymousRoots := by
  obtain ⟨slot, hindexed, rfl⟩ := Option.map_eq_some_iff.mp hknown
  exact ⟨Forest.find_lt (h.indexed_lt hindexed), m.forest.find_find slot, h.known_not_root hknown⟩

theorem of_candidate (h : m.WellFormed) (hc : c ∈ m.candidates n) :
    c < m.slots.size ∧ m.forest.find c = c ∧ c ∉ m.anonymousRoots := by
  obtain ⟨i, -, hknown⟩ := mem_candidates.mp hc
  exact h.of_known hknown

/-! ### The operations keep it -/

/-- A slot may take identities unless it is an anonymous root. -/
theorem register (h : m.WellFormed) (hslot : slot < m.slots.size)
    (hroot : n.hasIdentity = true → m.forest.find slot ∉ m.anonymousRoots) :
    (m.register n slot).WellFormed := by
  have hindexed {i : Identity} {s : Nat} (hs : (m.register n slot).indexed? i = some s) :
      m.indexed? i = some s ∨ (i ∈ n.identities ∧ s = slot) := by
    rw [indexed?_register, Option.or_eq_some_iff] at hs
    rcases hs with hs | ⟨-, hs⟩
    · exact Or.inl hs
    · split at hs
      · exact Or.inr ⟨‹_›, (Option.some.inj hs).symm⟩
      · cases hs
  have htargets (s : Nat) : ((m.register n slot).node s).targets = (m.node s).targets := by
    rw [node_register hslot]
    split <;> rfl
  exact {
    size_forest := by rw [size_slots_register]; exact h.size_forest
    first_root := h.first_root
    nodup_roots := h.nodup_roots
    root_lt := fun hs ↦ by rw [size_slots_register]; exact h.root_lt hs
    find_eq_root := h.find_eq_root
    indexed_lt := fun hs ↦ by
      rw [size_slots_register]
      rcases hindexed hs with hs | ⟨-, rfl⟩
      · exact h.indexed_lt hs
      · exact hslot
    known_not_root := fun {i c} hknown ↦ by
      obtain ⟨s, hs, rfl⟩ := Option.map_eq_some_iff.mp hknown
      rcases hindexed hs with hs | ⟨hi, rfl⟩
      · exact h.known_not_root (Option.map_eq_some_iff.mpr ⟨s, hs, rfl⟩)
      · exact hroot (Node.hasIdentity_of_mem hi)
    stable_of_indexed := fun hs ↦ by
      rcases hindexed hs with hs | ⟨hi, -⟩
      · exact h.stable_of_indexed hs
      · exact Node.isStable_of_mem_identities hi
    id_node := fun s ↦ by
      rw [node_register hslot]
      split <;> exact h.id_node s
    target_lt := fun ht ↦ by
      rw [htargets] at ht
      rw [size_slots_register]
      exact h.target_lt ht
    targets_absorbed := fun hs ↦ by
      rw [htargets]
      exact h.targets_absorbed hs }

/-- Joining the classes of two representatives makes the smaller one stand for both. -/
theorem find_unify {a b : Nat} (h : m.WellFormed) (hne : a ≠ b)
    (ha : a < m.slots.size ∧ m.forest.find a = a) (hb : b < m.slots.size ∧ m.forest.find b = b)
    (s : Nat) :
    (m.unify a b).forest.find s
      = if m.forest.find s = max a b then min a b else m.forest.find s := by
  rcases Nat.lt_or_gt_of_ne hne with hlt | hlt
  · rw [forest_unify, Nat.min_eq_left (Nat.le_of_lt hlt), Nat.max_eq_right (Nat.le_of_lt hlt)]
    exact Forest.find_absorb (h.size_forest ▸ hb.1) hlt ha.2 hb.2 s
  · rw [forest_unify, Nat.min_eq_right (Nat.le_of_lt hlt), Nat.max_eq_left (Nat.le_of_lt hlt)]
    exact Forest.find_absorb (h.size_forest ▸ ha.1) hlt hb.2 ha.2 s

/-- What represents a class after two were joined represented one before, and is not the slot that
was given up. -/
theorem find_eq_of_unify {a b rep : Nat} (h : m.WellFormed) (hne : a ≠ b)
    (ha : a < m.slots.size ∧ m.forest.find a = a) (hb : b < m.slots.size ∧ m.forest.find b = b)
    (hself : (m.unify a b).forest.find rep = rep) : m.forest.find rep = rep ∧ rep ≠ max a b := by
  have hmin : m.forest.find (min a b) = min a b := min_rec' (fun c ↦ m.forest.find c = c) ha.2 hb.2
  rw [h.find_unify hne ha hb] at hself
  split at hself
  next hgone =>
    rw [← hself, hmin] at hgone
    omega
  next hgone => exact ⟨hself, hself ▸ hgone⟩

/-- A class that is joined to another one is not that of a root, so the classes of roots stay as
they are. -/
theorem find_unify_eq_root {a b : Nat} (h : m.WellFormed) (hne : a ≠ b)
    (ha : a < m.slots.size ∧ m.forest.find a = a ∧ a ∉ m.anonymousRoots)
    (hb : b < m.slots.size ∧ m.forest.find b = b ∧ b ∉ m.anonymousRoots)
    (hslot : slot ∈ m.anonymousRoots) :
    (m.unify a b).forest.find other = slot ↔ other = slot := by
  have hkeep : min a b ∉ m.anonymousRoots := min_rec' (· ∉ m.anonymousRoots) ha.2.2 hb.2.2
  have hgone : max a b ∉ m.anonymousRoots := max_rec' (· ∉ m.anonymousRoots) ha.2.2 hb.2.2
  rw [h.find_unify hne ⟨ha.1, ha.2.1⟩ ⟨hb.1, hb.2.1⟩]
  split
  next hother =>
    constructor
    · rintro rfl
      exact absurd hslot hkeep
    · rintro rfl
      rw [h.find_root hslot] at hother
      exact absurd (hother ▸ hslot) hgone
  next => exact h.find_eq_root hslot

/-- The slot that was given up has no edges. -/
theorem targets_absorbed_unify {a b : Nat} (h : m.WellFormed) (hne : a ≠ b)
    (ha : a < m.slots.size ∧ m.forest.find a = a) (hb : b < m.slots.size ∧ m.forest.find b = b)
    (hslot : (m.unify a b).forest.find slot ≠ slot) : ((m.unify a b).node slot).targets = [] := by
  have hmin : m.forest.find (min a b) = min a b := min_rec' (fun c ↦ m.forest.find c = c) ha.2 hb.2
  have hlt : min a b < max a b := by omega
  rw [h.find_unify hne ha hb] at hslot
  rw [node_unify hne ha.1 hb.1]
  by_cases hkeep : slot = min a b
  · rw [hkeep, hmin, if_neg (Nat.ne_of_lt hlt)] at hslot
    exact absurd rfl hslot
  rw [if_neg hkeep]
  by_cases hgone : slot = max a b
  · rw [if_pos hgone, targets_blank]
  rw [if_neg hgone]
  refine h.targets_absorbed fun hself ↦ ?_
  rw [hself, if_neg hgone] at hslot
  exact hslot rfl

/-- Two classes may be joined unless one of them is that of an anonymous root. -/
theorem unify {a b : Nat} (h : m.WellFormed) (hne : a ≠ b)
    (ha : a < m.slots.size ∧ m.forest.find a = a ∧ a ∉ m.anonymousRoots)
    (hb : b < m.slots.size ∧ m.forest.find b = b ∧ b ∉ m.anonymousRoots) :
    (m.unify a b).WellFormed where
  size_forest := by
    rw [size_slots_unify, forest_unify, Forest.size_absorb]
    exact h.size_forest
  first_root := h.first_root
  nodup_roots := h.nodup_roots
  root_lt hslot := by rw [size_slots_unify]; exact h.root_lt hslot
  find_eq_root := h.find_unify_eq_root hne ha hb
  indexed_lt hindexed := by
    rw [indexed?_unify] at hindexed
    rw [size_slots_unify]
    exact h.indexed_lt hindexed
  known_not_root {i c} hknown := by
    obtain ⟨s, hs, rfl⟩ := Option.map_eq_some_iff.mp hknown
    rw [indexed?_unify] at hs
    rw [h.find_unify hne ⟨ha.1, ha.2.1⟩ ⟨hb.1, hb.2.1⟩, anonymousRoots_unify]
    split
    · exact min_rec' (· ∉ m.anonymousRoots) ha.2.2 hb.2.2
    · exact h.known_not_root (Option.map_eq_some_iff.mpr ⟨s, hs, rfl⟩)
  stable_of_indexed hindexed := h.stable_of_indexed (indexed?_unify m a b _ ▸ hindexed)
  id_node slot := by
    rw [node_unify hne ha.1 hb.1]
    split
    next hslot => exact (h.id_node _).trans hslot.symm
    next =>
      split
      · rfl
      · exact h.id_node slot
  target_lt {slot t} ht := by
    rw [node_unify hne ha.1 hb.1] at ht
    rw [size_slots_unify]
    split at ht
    next =>
      rcases mem_targets_inherit.mp ht with ht | ht
      · exact h.target_lt ht
      · exact h.target_lt ht
    next =>
      split at ht
      · cases ht
      · exact h.target_lt ht
  targets_absorbed := h.targets_absorbed_unify hne ⟨ha.1, ha.2.1⟩ ⟨hb.1, hb.2.1⟩

/-- An ordinal is handed out to the new slot, or to none. -/
theorem mem_roots_of_extend (hslot : slot ∈ (m.extend n).anonymousRoots) :
    slot ∈ m.anonymousRoots ∨ slot = m.slots.size := by
  rw [anonymousRoots_extend] at hslot
  split at hslot
  · exact Or.inl hslot
  · exact Array.mem_push.mp hslot

theorem first_root_extend (h : m.WellFormed) (n : Node) :
    (m.extend n).anonymousRoots[0]? = some 0 := by
  have hpos : 0 < m.anonymousRoots.size := (Array.getElem?_eq_some_iff.mp h.first_root).1
  rw [anonymousRoots_extend]
  split
  · exact h.first_root
  · rw [Array.getElem?_push, if_neg (Nat.ne_of_lt hpos)]
    exact h.first_root

theorem nodup_roots_extend (h : m.WellFormed) (n : Node) :
    (m.extend n).anonymousRoots.toList.Nodup := by
  rw [anonymousRoots_extend]
  split
  · exact h.nodup_roots
  · rw [Array.toList_push]
    refine List.Nodup.append h.nodup_roots (List.nodup_singleton _) fun s hs hnew ↦ ?_
    rw [List.mem_singleton] at hnew
    exact Nat.lt_irrefl _ (h.root_lt (hnew ▸ Array.mem_toList_iff.mp hs))

/-- The new slot is alone in its class, as the earlier roots are in theirs. -/
theorem find_extend_eq_root (h : m.WellFormed) (hslot : slot ∈ (m.extend n).anonymousRoots) :
    (m.extend n).forest.find other = slot ↔ other = slot := by
  rw [forest_extend, Forest.find_grow]
  rcases mem_roots_of_extend hslot with hroot | rfl
  · exact h.find_eq_root hroot
  constructor
  · intro hother
    have hle : m.forest.size ≤ other := by
      rw [h.size_forest, ← hother]
      exact m.forest.find_le other
    exact (Forest.find_of_size_le hle).symm.trans hother
  · rintro rfl
    exact Forest.find_of_size_le (Nat.le_of_eq h.size_forest)

/-- Nothing is known under the new slot yet. -/
theorem known_not_root_extend (h : m.WellFormed) (hknown : (m.extend n).known? i = some c) :
    c ∉ (m.extend n).anonymousRoots := by
  rw [known?_extend] at hknown
  obtain ⟨hlt, -, hroot⟩ := h.of_known hknown
  intro hmem
  rcases mem_roots_of_extend hmem with hold | rfl
  · exact hroot hold
  · exact Nat.lt_irrefl _ hlt

theorem id_node_extend (h : m.WellFormed) (n : Node) (slot : Nat) :
    ((m.extend n).node slot).id = slot := by
  rw [node_extend h.slots_pos]
  split
  next => rfl
  next =>
    split
    next hslot => exact (h.id_node 0).trans hslot.1.symm
    next => exact h.id_node slot

/-- The new slot has no edges, and the root may have one that leads to it. -/
theorem target_lt_extend {t : Nat} (h : m.WellFormed) (ht : t ∈ ((m.extend n).node slot).targets) :
    t < (m.extend n).slots.size := by
  rw [node_extend h.slots_pos] at ht
  rw [size_slots_extend]
  split at ht
  next => cases ht
  next =>
    split at ht
    next =>
      simp only [Node.targets, List.mem_append, List.mem_singleton] at ht
      rcases ht with (ht | rfl) | ht
      · exact Nat.lt_succ_of_lt (h.target_lt (List.mem_append_left _ ht))
      · exact Nat.lt_succ_self _
      · exact Nat.lt_succ_of_lt (h.target_lt (List.mem_append_right _ ht))
    next => exact Nat.lt_succ_of_lt (h.target_lt ht)

theorem targets_absorbed_extend (h : m.WellFormed) (hslot : (m.extend n).forest.find slot ≠ slot) :
    ((m.extend n).node slot).targets = [] := by
  rw [forest_extend, Forest.find_grow] at hslot
  rw [node_extend h.slots_pos]
  split
  next => rfl
  next =>
    split
    next hroot =>
      rw [hroot.1, Forest.find_zero] at hslot
      exact absurd rfl hslot
    next => exact h.targets_absorbed hslot

/-- A slot can be added at any time. -/
theorem extend (h : m.WellFormed) (n : Node) : (m.extend n).WellFormed where
  size_forest := by rw [forest_extend, Forest.size_grow, size_slots_extend, h.size_forest]
  first_root := h.first_root_extend n
  nodup_roots := h.nodup_roots_extend n
  root_lt hslot := by
    rw [size_slots_extend]
    rcases mem_roots_of_extend hslot with hroot | rfl
    · exact Nat.lt_succ_of_lt (h.root_lt hroot)
    · exact Nat.lt_succ_self _
  find_eq_root := h.find_extend_eq_root
  indexed_lt hindexed := by
    rw [indexed?_extend] at hindexed
    rw [size_slots_extend]
    exact Nat.lt_succ_of_lt (h.indexed_lt hindexed)
  known_not_root := h.known_not_root_extend
  stable_of_indexed hindexed := h.stable_of_indexed (indexed?_extend m n _ ▸ hindexed)
  id_node := h.id_node_extend n
  target_lt := h.target_lt_extend
  targets_absorbed := h.targets_absorbed_extend

/-- Edges between slots of the merger can be added at any time. -/
theorem addEdges {uses owns : List Nat} (h : m.WellFormed) (hslot : slot < m.slots.size)
    (hlt : ∀ t ∈ uses ++ owns, t < m.slots.size) : (m.addEdges slot uses owns).WellFormed := by
  have hnode : ∀ s, (m.addEdges slot uses owns).node s = _ := node_addEdges (Forest.find_lt hslot)
  exact {
    size_forest := by rw [size_slots_addEdges]; exact h.size_forest
    first_root := h.first_root
    nodup_roots := h.nodup_roots
    root_lt := fun hs ↦ by rw [size_slots_addEdges]; exact h.root_lt hs
    find_eq_root := h.find_eq_root
    indexed_lt := fun hs ↦ by
      rw [indexed?_addEdges] at hs
      rw [size_slots_addEdges]
      exact h.indexed_lt hs
    known_not_root := fun hknown ↦ by
      rw [known?, indexed?_addEdges] at hknown
      exact h.known_not_root hknown
    stable_of_indexed := fun hs ↦ by
      rw [indexed?_addEdges] at hs
      exact h.stable_of_indexed hs
    id_node := fun s ↦ by
      rw [hnode]
      split <;> exact h.id_node s
    target_lt := fun {s t} ht ↦ by
      rw [hnode] at ht
      rw [size_slots_addEdges]
      split at ht
      · simp only [Node.targets, List.mem_append] at ht
        rcases ht with (ht | ht) | (ht | ht)
        · exact h.target_lt (List.mem_append_left _ ht)
        · exact hlt t (List.mem_append_left _ ht)
        · exact h.target_lt (List.mem_append_right _ ht)
        · exact hlt t (List.mem_append_right _ ht)
      · exact h.target_lt ht
    targets_absorbed := fun {s} hs ↦ by
      rw [forest_addEdges] at hs
      rw [hnode]
      split
      · rename_i hself
        rw [hself, Forest.find_find] at hs
        exact absurd rfl hs
      · exact h.targets_absorbed hs }

/-- A new declaration gets a slot and its identities. -/
theorem allocate (h : m.WellFormed) (n : Node) : (m.allocate n).WellFormed := by
  refine (h.extend n).register ?_ fun hid hroot ↦ ?_
  · rw [size_slots_extend]
    exact Nat.lt_succ_self _
  · rw [forest_extend, Forest.find_grow, Forest.find_of_size_le (Nat.le_of_eq h.size_forest),
      anonymousRoots_extend, if_pos hid] at hroot
    exact Nat.lt_irrefl _ (h.root_lt hroot)

/-- **What a sighting does to a merger**, if anything: it registers the node for the one
representative that the node is known under, joins the two that it is known under, or gives it a
slot. What each of these keeps, a sighting keeps. -/
theorem settleAs_preserves {P : Merger → Prop} (h : m.WellFormed) (hr : Recognises m n r)
    (hstart : P m)
    (hregister : ∀ {a}, m.candidates n = [a] → a < m.slots.size → m.forest.find a = a →
      a ∉ m.anonymousRoots → P (m.register n a))
    (hunify : ∀ {a b}, a ≠ b → (a < m.slots.size ∧ m.forest.find a = a ∧ a ∉ m.anonymousRoots) →
      (b < m.slots.size ∧ m.forest.find b = b ∧ b ∉ m.anonymousRoots) → P (m.unify a b))
    (hallocate : r = .fresh → m.candidates n = [] → P (m.allocate n)) : P (m.settleAs n r).1 := by
  have hone {a : Nat} (hcand : m.candidates n = [a]) : P (m.register n a) := by
    obtain ⟨hlt, hself, hroot⟩ := h.of_candidate (n := n) (c := a) (by simp [hcand])
    exact hregister hcand hlt hself hroot
  cases hr with
  | root => exact hstart
  | @both a b hcand =>
    rw [Merger.settleAs]
    split
    next => exact hstart
    next hne =>
      exact hunify hne (h.of_candidate (n := n) (by simp [hcand]))
        (h.of_candidate (n := n) (by simp [hcand]))
  | path hcand => exact hone hcand
  | position hcand => exact hone hcand
  | fresh hcand => exact hallocate rfl hcand

/-- **However a node is recognised, the merger stays well-formed.** -/
theorem settleAs (h : m.WellFormed) (hr : Recognises m n r) : (m.settleAs n r).1.WellFormed :=
  h.settleAs_preserves hr h (fun _ hlt hself hroot ↦ h.register hlt fun _ ↦ by rwa [hself]) h.unify
    fun _ _ ↦ h.allocate n

end WellFormed

end Merger

end DeclExtract
