import Mathlib.Tactic.Common
import DeclExtract.Batch
import DeclExtract.Proofs.Declaration

/-!
# Accepted batches

A batch passes the check when every node has the id of its place, every edge stays within the batch,
and every node but the root can be recognised again or carries an ordinal (`check_eq_ok_iff`).
-/

namespace DeclExtract

namespace Batch

variable {b : Batch}

/-- **What the check of a batch asks for.** -/
structure Accepted (b : Batch) : Prop where
  /-- Every node has the id of its place. -/
  id_eq : ∀ {index : Nat} {n : Node}, b.nodes[index]? = some n → n.id = index
  /-- Edges stay within the batch. -/
  target_lt : ∀ {n : Node} {t : Nat}, n ∈ b.nodes → t ∈ n.targets → t < b.size
  /-- A node without identity and ordinal is the root. -/
  id_eq_zero : ∀ {n : Node}, n ∈ b.nodes → n.hasIdentity = false → n.subgraph = none → n.id = 0

theorem nodeFaults_eq_nil_iff {size index : Nat} {n : Node} :
    nodeFaults size n index = [] ↔ n.id = index ∧ ∀ t ∈ n.targets, t < size := by
  rw [nodeFaults, List.append_eq_nil_iff, List.map_eq_nil_iff, List.filter_eq_nil_iff]
  simp [Node.targets]

theorem numberingFaults_eq_nil_iff :
    b.numberingFaults = [] ↔
      ∀ (n : Node) (index : Nat), b.nodes[index]? = some n →
        n.id = index ∧ ∀ t ∈ n.targets, t < b.size := by
  simp only [numberingFaults, List.flatMap_eq_nil_iff, Prod.forall, nodeFaults_eq_nil_iff,
    List.mk_mem_zipIdx_iff_getElem?]

/-- The ids of a batch are sound just if each is the place of its node and every edge stays within
the batch. -/
theorem checkNumbering_eq_ok_iff : b.checkNumbering = .ok () ↔ ∀ (n : Node) (index : Nat),
    b.nodes[index]? = some n → n.id = index ∧ ∀ t ∈ n.targets, t < b.size := by
  rw [← numberingFaults_eq_nil_iff, checkNumbering]
  cases b.numberingFaults <;> simp

theorem identityFaults_eq_nil_iff :
    b.identityFaults = [] ↔
      ∀ n ∈ b.nodes, n.hasIdentity = false → n.subgraph = none → n.id = 0 := by
  simp only [identityFaults, List.map_eq_nil_iff, List.filter_eq_nil_iff]
  refine forall₂_congr fun n _ ↦ ?_
  cases hn : n.hasIdentity <;> simp [isAnonymous, hn]
  tauto

/-- **A batch passes the check when it is accepted.** -/
theorem check_eq_ok_iff : b.check = .ok () ↔ b.Accepted := by
  have hcheck : b.check = .ok () ↔ b.faults = [] := by
    unfold check
    split <;> simp [*]
  rw [hcheck, faults, List.append_eq_nil_iff, numberingFaults_eq_nil_iff, identityFaults_eq_nil_iff]
  constructor
  · rintro ⟨hnumbering, hidentity⟩
    refine ⟨fun hn ↦ (hnumbering _ _ hn).1, fun hn ht ↦ ?_, fun hn ↦ hidentity _ hn⟩
    obtain ⟨index, hindex⟩ := List.mem_iff_getElem?.mp hn
    exact (hnumbering _ _ hindex).2 _ ht
  · intro h
    exact ⟨fun n index hn ↦ ⟨h.id_eq hn, fun t ht ↦ h.target_lt (List.mem_of_getElem? hn) ht⟩,
      fun n hn ↦ h.id_eq_zero hn⟩

/-- The ids and edges of an accepted batch pass their own check. -/
theorem Accepted.checkNumbering (h : b.Accepted) : b.checkNumbering = .ok () :=
  checkNumbering_eq_ok_iff.mpr fun _ _ hn ↦
    ⟨h.id_eq hn, fun _ ht ↦ h.target_lt (List.mem_of_getElem? hn) ht⟩

/-- In an accepted batch without ordinals every node after the root has an identity: its id is a
later one. -/
theorem Accepted.hasIdentity_of_mem_tail {root n : Node} {rest : List Node} (h : b.Accepted)
    (hnodes : b.nodes = root :: rest) (hord : ∀ n ∈ b.nodes, n.subgraph = none) (hn : n ∈ rest) :
    n.hasIdentity = true := by
  by_contra hnone
  have hmem : n ∈ b.nodes := hnodes ▸ List.mem_cons_of_mem _ hn
  have hzero := h.id_eq_zero hmem (eq_false_of_ne_true hnone) (hord n hmem)
  obtain ⟨index, hindex⟩ := List.mem_iff_getElem?.mp hn
  have hid : n.id = index + 1 := h.id_eq (by rw [hnodes, List.getElem?_cons_succ, hindex])
  omega

end Batch

end DeclExtract
