import Mathlib.Data.List.Basic

/-!
# Self-delimiting texts

A way of writing is self-delimiting if it can be told where something that was written ends,
whatever follows it (`SelfDelimiting`). Then things that are written one after the other can be told
from the text, and any number of them can be written up to a closing mark that none of them starts
with (`SelfDelimiting.list`).
-/

namespace DeclExtract.Text

variable {α : Type}

/-- What stands before the first mark, and what follows it. -/
theorem append_mark_inj {mark : Char} {cs cs' rest rest' : List Char} (hcs : mark ∉ cs)
    (hcs' : mark ∉ cs') (heq : cs ++ mark :: rest = cs' ++ mark :: rest') :
    cs = cs' ∧ rest = rest' := by
  have htake {ds after : List Char} (hds : mark ∉ ds) :
      (ds ++ mark :: after).takeWhile (· ≠ mark) = ds := by
    have hne : ∀ d ∈ ds, decide (d ≠ mark) = true :=
      fun d hd ↦ decide_eq_true (ne_of_mem_of_not_mem hd hds)
    rw [List.takeWhile_append_of_pos hne, List.takeWhile_cons_of_neg (by simp), List.append_nil]
  obtain rfl : cs = cs' := by rw [← htake hcs, heq, htake hcs']
  exact ⟨rfl, (List.cons.inj (List.append_cancel_left heq)).2⟩

/-- **A way of writing is self-delimiting** if a text that starts with something written tells what
was written and what follows. -/
def SelfDelimiting (write : α → List Char) : Prop :=
  ∀ ⦃x y : α⦄ ⦃rest rest' : List Char⦄, write x ++ rest = write y ++ rest' → x = y ∧ rest = rest'

namespace SelfDelimiting

variable {write : α → List Char}

/-- What was written can be told from the text. -/
theorem injective (h : SelfDelimiting write) : Function.Injective write :=
  fun _ _ heq ↦ (h (congrArg (· ++ []) heq)).1

/-- What is written may be put between fixed texts. -/
theorem between (h : SelfDelimiting write) (before after : List Char) :
    SelfDelimiting fun x ↦ before ++ (write x ++ after) := by
  intro x y rest rest' heq
  simp only [List.append_assoc] at heq
  obtain ⟨hxy, hrest⟩ := h (List.append_cancel_left heq)
  exact ⟨hxy, List.append_cancel_left hrest⟩

/-- **Any number of things may be written**, up to a closing mark that none of them starts with. -/
theorem list (h : SelfDelimiting write) {close : List Char}
    (hclose : ∀ x rest rest', write x ++ rest ≠ close ++ rest') :
    SelfDelimiting fun xs : List α ↦ xs.flatMap write ++ close := by
  intro xs ys rest rest' heq
  simp only [List.append_assoc] at heq
  induction xs generalizing ys with
  | nil =>
    cases ys with
    | nil => exact ⟨rfl, List.append_cancel_left heq⟩
    | cons y ys =>
      rw [List.flatMap_cons, List.append_assoc] at heq
      exact absurd heq.symm (hclose y _ _)
  | cons x xs ih =>
    cases ys with
    | nil =>
      rw [List.flatMap_cons, List.append_assoc] at heq
      exact absurd heq (hclose x _ _)
    | cons y ys =>
      simp only [List.flatMap_cons, List.append_assoc] at heq
      obtain ⟨hxy, htail⟩ := h heq
      obtain ⟨hys, hrest⟩ := ih htail
      exact ⟨List.cons_eq_cons.mpr ⟨hxy, hys⟩, hrest⟩

/-- A number ends at the blank after it. -/
theorem decimal : SelfDelimiting fun n : Nat ↦ (toString n).toList ++ [' '] := by
  have hdigits (n : Nat) : (toString n).toList = Nat.toDigits 10 n := Nat.toList_repr
  have hblank (n : Nat) : ' ' ∉ Nat.toDigits 10 n := fun hmem ↦
    absurd (Nat.isDigit_of_mem_toDigits (by decide) (by decide) hmem) (by decide)
  have hvalue (n : Nat) : Nat.ofDigitChars 10 (Nat.toDigits 10 n) 0 = n :=
    Nat.ofDigitChars_toDigits (by decide) (by decide)
  intro n n' rest rest' heq
  simp only [hdigits, List.append_assoc, List.singleton_append] at heq
  obtain ⟨hsame, hrest⟩ := append_mark_inj (hblank n) (hblank n') heq
  exact ⟨by rw [← hvalue n, hsame, hvalue n'], hrest⟩

end SelfDelimiting

end DeclExtract.Text
