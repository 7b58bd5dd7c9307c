import DeclExtract.Proofs.Merge.WellFormed

/-!
# Sightings

A sighting is a node of a batch as a merger met it: how the node was recognised, and the slot it was
given. What one sighting does to a merger is said once here, and the rest of the theory goes by it:

* every representative among the candidates is replaced by the slot of the sighting, and no other
  representative changes (`find_settleAs`);
* every identity of the node is known under that slot from then on, and no other identity becomes
  known (`indexed?_settleAs`).

A batch is merged in two passes. The first is a chain of sightings (`foldl_sight`), and what is put
down about a batch (its report, the slots of its nodes, its events) can be read off the list of
them. The second adds edges, which changes neither the classes nor the index (`connectAll`).
-/

namespace DeclExtract

namespace Merger

variable {m : Merger} {n : Node} {r : Recognition} {i : Identity} {slot c : Nat}

/-! ### What one sighting changes -/

theorem of_candidates_eq {a b : Nat} (h : m.WellFormed) (hcand : m.candidates n = [a, b]) :
    (a < m.slots.size ∧ m.forest.find a = a) ∧ b < m.slots.size ∧ m.forest.find b = b := by
  obtain ⟨ha, hfa, -⟩ := h.of_candidate (n := n) (c := a) (by simp [hcand])
  obtain ⟨hb, hfb, -⟩ := h.of_candidate (n := n) (c := b) (by simp [hcand])
  exact ⟨⟨ha, hfa⟩, hb, hfb⟩

theorem size_slots_le_settleAs (m : Merger) (n : Node) (r : Recognition) :
    m.slots.size ≤ (m.settleAs n r).1.slots.size := by
  cases r with
  | root => exact Nat.le_refl _
  | both a b =>
    rw [settleAs]
    split
    · exact Nat.le_refl _
    · exact Nat.le_of_eq (m.size_slots_unify a b).symm
  | path slot => exact Nat.le_of_eq (m.size_slots_register n slot).symm
  | position slot => exact Nat.le_of_eq (m.size_slots_register n slot).symm
  | fresh =>
    rw [settleAs, size_slots_allocate]
    exact Nat.le_succ _

/-- The slot of a sighting is there afterwards, and represents its class. -/
theorem slot_settleAs (h : m.WellFormed) (hr : Recognises m n r) :
    (m.settleAs n r).2 < (m.settleAs n r).1.slots.size
      ∧ (m.settleAs n r).1.forest.find (m.settleAs n r).2 = (m.settleAs n r).2 := by
  cases hr with
  | root hord hslot =>
    obtain ⟨s, hs, rfl⟩ := Option.map_eq_some_iff.mp hslot
    exact ⟨Forest.find_lt (h.root_lt (Array.mem_of_getElem? hs)), m.forest.find_find s⟩
  | @both a b hcand =>
    obtain ⟨ha, hb⟩ := of_candidates_eq h hcand
    rw [settleAs]
    split
    · exact ha
    next hne =>
      refine ⟨by rw [size_slots_unify]; exact Nat.lt_of_le_of_lt (Nat.min_le_left a b) ha.1, ?_⟩
      rw [h.find_unify hne ha hb]
      rcases Nat.le_total a b with hle | hle
      · rw [Nat.min_eq_left hle, ha.2, ite_id]
      · rw [Nat.min_eq_right hle, hb.2, ite_id]
  | @path a hcand =>
    obtain ⟨ha, hfa, -⟩ := h.of_candidate (n := n) (c := a) (by simp [hcand])
    exact ⟨by rw [settleAs, size_slots_register]; exact ha, hfa⟩
  | @position a hcand =>
    obtain ⟨ha, hfa, -⟩ := h.of_candidate (n := n) (c := a) (by simp [hcand])
    exact ⟨by rw [settleAs, size_slots_register]; exact ha, hfa⟩
  | fresh =>
    constructor
    · rw [settleAs, size_slots_allocate]
      exact Nat.lt_succ_self _
    · rw [settleAs, forest_allocate, Forest.find_grow]
      exact Forest.find_of_size_le (Nat.le_of_eq h.size_forest)

/-- **A sighting gathers its candidates.** Where a slot was found at a candidate, it is found at the
slot of the sighting; otherwise it is found where it was. -/
theorem find_settleAs (h : m.WellFormed) (hr : Recognises m n r) (hord : n.subgraph = none)
    (s : Nat) :
    (m.settleAs n r).1.forest.find s
      = if m.forest.find s ∈ m.candidates n then (m.settleAs n r).2 else m.forest.find s := by
  cases hr with
  | root hord' => rw [hord] at hord'; cases hord'
  | @both a b hcand =>
    obtain ⟨ha, hb⟩ := of_candidates_eq h hcand
    rw [settleAs, hcand]
    split
    next heq =>
      subst heq
      by_cases hs : m.forest.find s = a <;> simp [hs]
    next hne =>
      rw [h.find_unify hne ha hb]
      simp only [List.mem_cons, List.not_mem_nil, or_false]
      rcases Nat.lt_or_gt_of_ne hne with hlt | hlt <;> split <;> split <;> omega
  | @path a hcand =>
    rw [settleAs, hcand, forest_register]
    by_cases hs : m.forest.find s = a <;> simp [hs]
  | @position a hcand =>
    rw [settleAs, hcand, forest_register]
    by_cases hs : m.forest.find s = a <;> simp [hs]
  | fresh hcand =>
    rw [settleAs, hcand, forest_allocate, Forest.find_grow]
    simp

/-- What was one declaration before a sighting is one afterwards. -/
theorem refines_settleAs (h : m.WellFormed) (hr : Recognises m n r) :
    m.forest.Refines (m.settleAs n r).1.forest := by
  cases hr with
  | root => exact Forest.Refines.refl _
  | @both a b hcand =>
    obtain ⟨ha, hb⟩ := of_candidates_eq h hcand
    rw [settleAs]
    split
    · exact Forest.Refines.refl _
    next hne =>
      intro s
      rw [h.find_unify hne ha hb, h.find_unify hne ha hb, Forest.find_find]
  | path => exact Forest.Refines.refl _
  | position => exact Forest.Refines.refl _
  | fresh => exact Forest.refines_grow _

/-- **A sighting makes its identities known**, and no others. -/
theorem indexed?_settleAs (hr : Recognises m n r) (hord : n.subgraph = none) (i : Identity) :
    (m.settleAs n r).1.indexed? i
      = (m.indexed? i).or (if i ∈ n.identities then some (m.settleAs n r).2 else none) := by
  cases hr with
  | root hord' => rw [hord] at hord'; cases hord'
  | @both a b hcand hknown =>
    -- both identities were known before, so there is nothing to take
    have hold :
        (m.indexed? i).or (if i ∈ n.identities then some (m.settleAs n (.both a b)).2 else none)
          = m.indexed? i := by
      by_cases hi : i ∈ n.identities
      · obtain ⟨s, hs⟩ := Option.ne_none_iff_exists'.mp fun hnone ↦
          hknown i hi (known?_eq_none_iff.mpr hnone)
        rw [hs, Option.some_or]
      · rw [if_neg hi, Option.or_none]
    rw [hold, settleAs]
    split
    · rfl
    · rw [indexed?_unify]
  | path => exact m.indexed?_register n _ i
  | position => exact m.indexed?_register n _ i
  | fresh => exact m.indexed?_allocate n i

/-- **A node without an ordinal is either given one of its candidates or a new slot.** -/
theorem settleAs_cases (hr : Recognises m n r) (hord : n.subgraph = none) :
    (n.hasIdentity = true ∧ (m.settleAs n r).2 ∈ m.candidates n
        ∧ (m.settleAs n r).1.slots.size = m.slots.size
        ∧ (m.settleAs n r).1.anonymousRoots = m.anonymousRoots)
      ∨ (m.candidates n = [] ∧ (m.settleAs n r).2 = m.slots.size
        ∧ (m.settleAs n r).1.slots.size = m.slots.size + 1
        ∧ (m.settleAs n r).1.anonymousRoots
          = if n.hasIdentity then m.anonymousRoots else m.anonymousRoots.push m.slots.size) := by
  have hidentity {c : Nat} (hc : c ∈ m.candidates n) : n.hasIdentity = true := by
    obtain ⟨i, hi, -⟩ := mem_candidates.mp hc
    exact Node.hasIdentity_of_mem hi
  cases hr with
  | root hord' => rw [hord] at hord'; cases hord'
  | @both a b hcand =>
    refine Or.inl ⟨hidentity (c := a) (by simp [hcand]), ?_⟩
    rw [settleAs, hcand]
    split
    next => exact ⟨List.mem_cons_self, rfl, rfl⟩
    next =>
      refine ⟨?_, m.size_slots_unify a b, rfl⟩
      rcases Nat.le_total a b with hle | hle
      · simp [Nat.min_eq_left hle]
      · simp [Nat.min_eq_right hle]
  | @path a hcand =>
    have hmem : a ∈ m.candidates n := by simp [hcand]
    exact Or.inl ⟨hidentity hmem, hmem, m.size_slots_register n a, rfl⟩
  | @position a hcand =>
    have hmem : a ∈ m.candidates n := by simp [hcand]
    exact Or.inl ⟨hidentity hmem, hmem, m.size_slots_register n a, rfl⟩
  | fresh hcand => exact Or.inr ⟨hcand, rfl, m.size_slots_allocate n, rfl⟩

end Merger

/-! ### Sightings -/

/-- A node as a merger met it. -/
structure Sighting where
  node : Node
  /-- How the node was recognised. -/
  recognition : Recognition
  /-- The slot that the node was given. -/
  slot : Nat

namespace Sighting

/-- The event that reports a sighting. -/
def event (x : Sighting) : Event :=
  x.recognition.event x.node x.slot

/-- The report with a sighting counted. -/
def count (report : MergeReport) (x : Sighting) : MergeReport :=
  x.recognition.count report x.node

end Sighting

namespace Merger

variable {m : Merger} {n : Node}

/-- The merger after one sighting. -/
def sighted (m : Merger) (n : Node) : Merger :=
  (m.settleAs n (m.recognise n)).1

/-- The sighting of a node. -/
def sighting (m : Merger) (n : Node) : Sighting :=
  ⟨n, m.recognise n, (m.settleAs n (m.recognise n)).2⟩

/-- A new node is given a slot. -/
theorem sighted_of_fresh (hfresh : m.recognise n = .fresh) : m.sighted n = m.allocate n := by
  rw [sighted, hfresh, settleAs]

/-- That slot is the next one. -/
theorem slot_sighting_of_fresh (hfresh : m.recognise n = .fresh) :
    (m.sighting n).slot = m.slots.size := by
  rw [sighting, hfresh, settleAs]

/-- **A node without identity is new unless its ordinal is known.** -/
theorem recognise_anonymous_iff (m : Merger) (hnone : n.hasIdentity = false) :
    m.recognise n = .fresh ↔ ∀ o, n.subgraph = some o → m.atOrdinal? o = none := by
  have hcand : m.candidates n = [] := by
    refine List.filterMap_eq_nil_iff.mpr fun i hi ↦ ?_
    rw [Node.hasIdentity_of_mem hi] at hnone
    cases hnone
  rw [recognise_eq_fresh_iff, and_iff_left hcand]

/-- If it is new, its slot is given the next ordinal. -/
theorem anonymousRoots_sighted_of_fresh (hfresh : m.recognise n = .fresh)
    (hnone : n.hasIdentity = false) :
    (m.sighted n).anonymousRoots = m.anonymousRoots.push m.slots.size := by
  rw [sighted_of_fresh hfresh, anonymousRoots_allocate, hnone]
  rfl

theorem WellFormed.sighted (h : m.WellFormed) (n : Node) : (m.sighted n).WellFormed :=
  h.settleAs (m.recognises n)

theorem refines_sighted (h : m.WellFormed) (n : Node) : m.forest.Refines (m.sighted n).forest :=
  refines_settleAs h (m.recognises n)

theorem size_slots_le_sighted (m : Merger) (n : Node) : m.slots.size ≤ (m.sighted n).slots.size :=
  m.size_slots_le_settleAs n _

theorem slot_sighting_lt (h : m.WellFormed) (n : Node) :
    (m.sighting n).slot < (m.sighted n).slots.size :=
  (slot_settleAs h (m.recognises n)).1

theorem find_slot_sighting (h : m.WellFormed) (n : Node) :
    (m.sighted n).forest.find (m.sighting n).slot = (m.sighting n).slot :=
  (slot_settleAs h (m.recognises n)).2

theorem find_sighted (h : m.WellFormed) (hord : n.subgraph = none) (s : Nat) :
    (m.sighted n).forest.find s
      = if m.forest.find s ∈ m.candidates n then (m.sighting n).slot else m.forest.find s :=
  find_settleAs h (m.recognises n) hord s

theorem indexed?_sighted (hord : n.subgraph = none) (i : Identity) :
    (m.sighted n).indexed? i
      = (m.indexed? i).or (if i ∈ n.identities then some (m.sighting n).slot else none) :=
  indexed?_settleAs (m.recognises n) hord i

theorem sighted_cases (m : Merger) (hord : n.subgraph = none) :
    (n.hasIdentity = true ∧ (m.sighting n).slot ∈ m.candidates n
        ∧ (m.sighted n).slots.size = m.slots.size
        ∧ (m.sighted n).anonymousRoots = m.anonymousRoots)
      ∨ (m.candidates n = [] ∧ (m.sighting n).slot = m.slots.size
        ∧ (m.sighted n).slots.size = m.slots.size + 1
        ∧ (m.sighted n).anonymousRoots
          = if n.hasIdentity then m.anonymousRoots else m.anonymousRoots.push m.slots.size) :=
  settleAs_cases (m.recognises n) hord

/-- **A sighting is known under all of its identities**, and other identities are known as
before. -/
theorem known?_sighted (h : m.WellFormed) (hord : n.subgraph = none) (i : Identity) :
    (m.sighted n).known? i
      = if i ∈ n.identities then some (m.sighting n).slot
        else (m.known? i).map (m.sighted n).forest.find := by
  rw [known?, indexed?_sighted hord]
  cases hindexed : m.indexed? i with
  | none =>
    rw [Option.none_or, known?_eq_none_iff.mpr hindexed]
    split
    · rw [Option.map_some, find_slot_sighting h n]
    · rfl
  | some s =>
    have hknown : m.known? i = some (m.forest.find s) := by rw [known?, hindexed, Option.map_some]
    rw [Option.some_or, hknown, Option.map_some, Option.map_some, refines_sighted h n s]
    split
    next hi =>
      have hcand : m.forest.find s ∈ m.candidates n := mem_candidates.mpr ⟨i, hi, hknown⟩
      rw [find_sighted h hord, if_pos hcand]
    next => rfl

/-- An identity that was indexed stays indexed under its slot. -/
theorem indexed?_sighted_of_some {i : Identity} {slot : Nat} (hm : m.WellFormed) (n : Node)
    (hslot : m.indexed? i = some slot) : (m.sighted n).indexed? i = some slot := by
  refine hm.settleAs_preserves (P := fun m' ↦ m'.indexed? i = some slot) (m.recognises n) hslot
    (fun {a} _ _ _ _ ↦ ?_) (fun {a b} _ _ _ ↦ ?_) fun _ _ ↦ ?_
  · rw [indexed?_register, hslot, Option.some_or]
  · rw [indexed?_unify, hslot]
  · rw [indexed?_allocate, hslot, Option.some_or]

/-- An identity that is known under the class of a slot stays known under the class of that slot. -/
theorem known?_sighted_of_eq {i : Identity} {slot : Nat} (hm : m.WellFormed) (n : Node)
    (hknown : m.known? i = some (m.forest.find slot)) :
    (m.sighted n).known? i = some ((m.sighted n).forest.find slot) := by
  obtain ⟨s, hs, hclass⟩ := Option.map_eq_some_iff.mp hknown
  rw [known?, indexed?_sighted_of_some hm n hs, Option.map_some,
    (refines_sighted hm n).find_eq hclass]

/-! ### Chains of sightings -/

/-- The sightings of nodes one after the other. -/
def sightings (m : Merger) : List Node → List Sighting
  | [] => []
  | n :: ns => m.sighting n :: (m.sighted n).sightings ns

@[simp] theorem map_node_sightings (m : Merger) (ns : List Node) :
    (m.sightings ns).map Sighting.node = ns := by
  induction ns generalizing m with
  | nil => rfl
  | cons n ns ih => rw [sightings, List.map_cons, ih]; rfl

theorem length_sightings (m : Merger) (ns : List Node) : (m.sightings ns).length = ns.length := by
  rw [← List.length_map Sighting.node, map_node_sightings]

/-- **The first pass over a batch is a chain of sightings.** -/
theorem foldl_sight (s : Merging) (ns : List Node) :
    ns.foldl Merging.sight s
      = ⟨ns.foldl Merger.sighted s.merger, (s.merger.sightings ns).foldl Sighting.count s.report,
          s.placed ++ ((s.merger.sightings ns).map Sighting.slot).toArray,
          s.events ++ ((s.merger.sightings ns).map Sighting.event).toArray⟩ := by
  induction ns generalizing s with
  | nil => simp [sightings]
  | cons n ns ih =>
    rw [List.foldl_cons, ih]
    simp [sightings, Merging.sight, sighting, sighted, Sighting.count, Sighting.event]

theorem WellFormed.foldl_sighted (h : m.WellFormed) (ns : List Node) :
    (ns.foldl Merger.sighted m).WellFormed := by
  induction ns generalizing m with
  | nil => exact h
  | cons n ns ih => exact ih (h.sighted n)

theorem size_slots_le_foldl_sighted (m : Merger) (ns : List Node) :
    m.slots.size ≤ (ns.foldl sighted m).slots.size := by
  induction ns generalizing m with
  | nil => exact Nat.le_refl _
  | cons n ns ih => exact Nat.le_trans (m.size_slots_le_sighted n) (ih (m.sighted n))

theorem refines_foldl_sighted (h : m.WellFormed) (ns : List Node) :
    m.forest.Refines (ns.foldl sighted m).forest := by
  induction ns generalizing m with
  | nil => exact Forest.Refines.refl _
  | cons n ns ih => exact (refines_sighted h n).trans (ih (h.sighted n))

theorem slot_lt_of_mem_sightings (h : m.WellFormed) {ns : List Node} {x : Sighting}
    (hx : x ∈ m.sightings ns) : x.slot < (ns.foldl sighted m).slots.size := by
  induction ns generalizing m with
  | nil => cases hx
  | cons n ns ih =>
    rcases List.mem_cons.mp hx with rfl | hx
    · exact Nat.lt_of_lt_of_le (slot_sighting_lt h n)
        (size_slots_le_foldl_sighted (m.sighted n) ns)
    · exact ih (h.sighted n) hx

/-! ### The second pass -/

/-- Adds the edges of nodes, which are written in local ids, between the slots of the ids. -/
def connectAll (slotOf : Nat → Nat) (m : Merger) (ns : List Node) : Merger :=
  ns.foldl (fun m n ↦ m.addEdges (slotOf n.id) (n.uses.map slotOf) (n.owns.map slotOf)) m

variable {slotOf : Nat → Nat}

@[simp] theorem forest_connectAll (slotOf : Nat → Nat) (m : Merger) (ns : List Node) :
    (m.connectAll slotOf ns).forest = m.forest := by
  induction ns generalizing m with
  | nil => rfl
  | cons n ns ih => exact ih _

@[simp] theorem anonymousRoots_connectAll (slotOf : Nat → Nat) (m : Merger) (ns : List Node) :
    (m.connectAll slotOf ns).anonymousRoots = m.anonymousRoots := by
  induction ns generalizing m with
  | nil => rfl
  | cons n ns ih => exact ih _

@[simp] theorem size_slots_connectAll (slotOf : Nat → Nat) (m : Merger) (ns : List Node) :
    (m.connectAll slotOf ns).slots.size = m.slots.size := by
  induction ns generalizing m with
  | nil => rfl
  | cons n ns ih => exact (ih _).trans (m.size_slots_addEdges _ _ _)

@[simp] theorem indexed?_connectAll (slotOf : Nat → Nat) (m : Merger) (ns : List Node)
    (i : Identity) : (m.connectAll slotOf ns).indexed? i = m.indexed? i := by
  induction ns generalizing m with
  | nil => rfl
  | cons n ns ih => exact (ih _).trans (m.indexed?_addEdges _ _ _ i)

/-- **A slot gains the edges of the nodes that are connected there**, in their order. -/
theorem node_connectAll_eq {ns : List Node}
    (hns : ∀ n ∈ ns, m.forest.find (slotOf n.id) < m.slots.size) (s : Nat) :
    (m.connectAll slotOf ns).node s
      = { m.node s with
          uses := (m.node s).uses
            ++ (ns.filter fun n ↦ m.forest.find (slotOf n.id) = s).flatMap fun n ↦ n.uses.map slotOf
          owns := (m.node s).owns
            ++ (ns.filter fun n ↦ m.forest.find (slotOf n.id) = s).flatMap fun n ↦
              n.owns.map slotOf } := by
  induction ns generalizing m with
  | nil => simp [connectAll]
  | cons n ns ih =>
    let first := m.addEdges (slotOf n.id) (n.uses.map slotOf) (n.owns.map slotOf)
    have hfirst : first.node s = _ := node_addEdges (hns n List.mem_cons_self) s
    have hrest := ih (m := first) fun k hk ↦ by
      rw [forest_addEdges, size_slots_addEdges]
      exact hns k (List.mem_cons_of_mem _ hk)
    refine hrest.trans ?_
    rw [hfirst, forest_addEdges]
    by_cases hs : m.forest.find (slotOf n.id) = s
    · rw [if_pos hs.symm]
      simp [hs]
    · rw [if_neg (Ne.symm hs)]
      simp [hs]

/-- The edges of a node may be added if all slots are there. -/
theorem WellFormed.connected (h : m.WellFormed) (hslot : ∀ localId, slotOf localId < m.slots.size)
    (n : Node) : (m.addEdges (slotOf n.id) (n.uses.map slotOf) (n.owns.map slotOf)).WellFormed := by
  refine h.addEdges (hslot n.id) fun t ht ↦ ?_
  rw [← List.map_append] at ht
  obtain ⟨localId, -, rfl⟩ := List.mem_map.mp ht
  exact hslot localId

theorem WellFormed.connectAll (h : m.WellFormed) (hslot : ∀ localId, slotOf localId < m.slots.size)
    (ns : List Node) : (m.connectAll slotOf ns).WellFormed := by
  induction ns generalizing m with
  | nil => exact h
  | cons n ns ih =>
    refine ih (h.connected hslot n) fun localId ↦ ?_
    rw [size_slots_addEdges]
    exact hslot localId

/-! ### A whole batch -/

end Merger

/-- The slot that the node with a local id was given. -/
def Merged.slotOf (merged : Merged) (localId : Nat) : Nat :=
  merged.placed[localId]?.getD 0

namespace Merger

variable {m : Merger} {b : Batch}

theorem placed_mergeSound (m : Merger) (b : Batch) :
    (m.mergeSound b).placed = ((m.sightings b.nodes).map Sighting.slot).toArray := by
  rw [mergeSound, foldl_sight]
  exact Array.empty_append

theorem report_mergeSound (m : Merger) (b : Batch) :
    (m.mergeSound b).report = (m.sightings b.nodes).foldl Sighting.count {} := by
  rw [mergeSound, foldl_sight]
  rfl

theorem merger_mergeSound (m : Merger) (b : Batch) :
    (m.mergeSound b).merger
      = (b.nodes.foldl sighted m).connectAll (m.mergeSound b).slotOf b.nodes :=
  calc (m.mergeSound b).merger
      = (b.nodes.foldl Merging.sight (Merging.start m)).merger.connectAll
          (m.mergeSound b).slotOf b.nodes := rfl
    _ = (b.nodes.foldl sighted m).connectAll (m.mergeSound b).slotOf b.nodes := by
      rw [foldl_sight]
      rfl

/-- The slot of a node is that of its sighting. -/
theorem slotOf_mergeSound {localId : Nat} {x : Sighting}
    (hx : (m.sightings b.nodes)[localId]? = some x) : (m.mergeSound b).slotOf localId = x.slot := by
  rw [Merged.slotOf, placed_mergeSound]
  simp [hx]

theorem forest_mergeSound (m : Merger) (b : Batch) :
    (m.mergeSound b).merger.forest = (b.nodes.foldl sighted m).forest := by
  rw [merger_mergeSound, forest_connectAll]

theorem slotOf_lt (h : m.WellFormed) (b : Batch) (localId : Nat) :
    (m.mergeSound b).slotOf localId < (b.nodes.foldl sighted m).slots.size := by
  cases hx : (m.sightings b.nodes)[localId]? with
  | some x =>
    rw [slotOf_mergeSound hx]
    exact slot_lt_of_mem_sightings h (List.mem_of_getElem? hx)
  | none =>
    rw [Merged.slotOf, placed_mergeSound]
    simpa [hx] using (h.foldl_sighted b.nodes).slots_pos

/-- **Merging a batch keeps a merger well-formed.** -/
theorem WellFormed.mergeSound (h : m.WellFormed) (b : Batch) :
    (m.mergeSound b).merger.WellFormed := by
  rw [merger_mergeSound]
  exact (h.foldl_sighted b.nodes).connectAll (slotOf_lt h b) b.nodes

/-- **Merging a batch separates nothing.** -/
theorem refines_mergeSound (h : m.WellFormed) (b : Batch) :
    m.forest.Refines (m.mergeSound b).merger.forest := by
  rw [forest_mergeSound]
  exact refines_foldl_sighted h b.nodes

end Merger

end DeclExtract
