/-!
# Ascending lists

A finite set of ids or of names is written as the strictly ascending list of its members, so that
two equal sets are written alike. `ascending` brings any list into that form. What the lists are
used for rests on two facts: `mem_ascending`, the members are those of the list it was made from,
and `pairwise_ascending`, they stand in ascending order without repetition.
-/

namespace DeclExtract

/-- Of two different members of a linear order, the one that is not below lies above. -/
theorem lt_of_not_lt_of_ne {α : Type} [LT α] [LE α] [Std.IsLinearOrder α] [Std.LawfulOrderLT α]
    {x y : α} (h : ¬ x < y) (hne : x ≠ y) : y < x :=
  Std.lt_of_le_of_ne (Std.not_lt.mp h) fun e ↦ hne e.symm

variable {α : Type} [LT α] [DecidableLT α] [DecidableEq α]

/-- An ascending list with `x` put in its place, unless it is there already. -/
def insertAscending (x : α) : List α → List α
  | [] => [x]
  | y :: ys =>
    if x < y then x :: y :: ys
    else if x = y then y :: ys
    else y :: insertAscending x ys

/-- The members of a list in ascending order, each once. -/
def ascending (xs : List α) : List α :=
  xs.foldr insertAscending []

/-! ### Members -/

@[simp] theorem mem_insertAscending {x z : α} {ys : List α} :
    z ∈ insertAscending x ys ↔ z = x ∨ z ∈ ys := by
  induction ys with
  | nil => simp [insertAscending]
  | cons y ys ih =>
    unfold insertAscending
    split
    · simp
    · split
      next h => subst h; simp
      next => simp [ih, or_left_comm]

@[simp] theorem mem_ascending {z : α} {xs : List α} : z ∈ ascending xs ↔ z ∈ xs := by
  induction xs with
  | nil => simp [ascending]
  | cons x xs ih =>
    simp only [ascending, List.foldr_cons, mem_insertAscending, List.mem_cons] at ih ⊢
    rw [ih]

/-! ### Order -/

variable [LE α] [Std.IsLinearOrder α] [Std.LawfulOrderLT α]

theorem pairwise_insertAscending {x : α} {ys : List α} (h : ys.Pairwise (· < ·)) :
    (insertAscending x ys).Pairwise (· < ·) := by
  induction ys with
  | nil => simp [insertAscending]
  | cons y ys ih =>
    rw [List.pairwise_cons] at h
    unfold insertAscending
    split
    next hlt =>
      refine List.pairwise_cons.mpr ⟨fun z hz ↦ ?_, List.pairwise_cons.mpr h⟩
      rcases List.mem_cons.mp hz with rfl | hz
      · exact hlt
      · exact Std.lt_trans hlt (h.1 z hz)
    next hlt =>
      split
      · exact List.pairwise_cons.mpr h
      next hne =>
        refine List.pairwise_cons.mpr ⟨fun z hz ↦ ?_, ih h.2⟩
        rcases mem_insertAscending.mp hz with rfl | hz
        · exact lt_of_not_lt_of_ne hlt hne
        · exact h.1 z hz

theorem pairwise_ascending (xs : List α) : (ascending xs).Pairwise (· < ·) := by
  induction xs with
  | nil => simp [ascending]
  | cons x xs ih => exact pairwise_insertAscending ih

end DeclExtract
