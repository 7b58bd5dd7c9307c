import DeclExtract.Json.Parser
import DeclExtract.Json.Printer
import Mathlib.Data.List.Basic
import Mathlib.Data.List.TakeDrop

/-!
# Reading literals that were written

A string literal is read back, whatever follows its closing quote (`readStr_body`), and a natural
number is read back from its digits, unless what follows goes on with it (`readUnsigned_toDigits`).
-/

namespace DeclExtract.Json

open Text

variable {c : Char} {cs rest : List Char} {ps : List Piece}

/-! ### Strings -/

/-- The four digits of a unit give the unit back. -/
theorem unitValue_digits {u : Nat} (h : u < 65536) :
    unitValue (Hexadecimal.digit (u / 4096 % 16)) (Hexadecimal.digit (u / 256 % 16))
    (Hexadecimal.digit (u / 16 % 16))
      (Hexadecimal.digit (u % 16)) = some u := by
  have hdigit (n : Nat) : Hexadecimal.value? (Hexadecimal.digit (n % 16)) = some (n % 16) :=
    Hexadecimal.value?_digit _ (Nat.mod_lt _ (by decide))
  simp only [unitValue, hdigit, Option.bind_eq_bind, Option.bind_some, Option.some.injEq]
  omega

/-- The piece that is read where a character was written: the character, or its unit if it is a
control character without a letter of its own. -/
inductive Piece.Denotes : Piece → Char → Prop where
  | char (c : Char) : (Piece.char c).Denotes c
  | unit {c : Char} (control : c.toNat < 32) : (Piece.unit c.toNat).Denotes c

/-- A character that stands for itself. -/
theorem readPieces_cons (hquote : c ≠ '"') (hbackslash : c ≠ '\\') (hcontrol : ¬ c.toNat < 32) :
    readPieces (c :: cs) = (readPieces cs).map fun (ps, rest) ↦ (.char c :: ps, rest) := by
  rw [Option.map_eq_bind, readPieces.eq_def]
  split
  next heq => nomatch heq
  next heq => exact absurd (List.cons.inj heq).1 hquote
  next heq => exact absurd (List.cons.inj heq).1 hbackslash
  next heq => exact absurd (List.cons.inj heq).1 hbackslash
  next heq =>
    obtain ⟨rfl, rfl⟩ := List.cons.inj heq
    rw [if_neg (not_or.mpr ⟨hcontrol, hbackslash⟩)]
    rfl

theorem readPieces_escapeChar (c : Char) :
    ∃ p : Piece, p.Denotes c ∧
      ∀ cs, readPieces (escapeChar c ++ cs)
        = (readPieces cs).map fun (ps, rest) ↦ (p :: ps, rest) := by
  unfold escapeChar
  split_ifs with h₁ h₂ h₃ h₄ h₅ h₆ h₇ h₈
  -- the quote, the backslash and the five control characters with a letter
  iterate 7
    · subst c
      refine ⟨_, .char _, fun cs ↦ ?_⟩
      rw [Option.map_eq_bind]
      rfl
  · have hvalue := unitValue_digits (u := c.toNat) (by omega)
    refine ⟨_, .unit h₈, fun cs ↦ ?_⟩
    simp only [unitEscape, List.cons_append, List.nil_append, readPieces, hvalue,
      Option.bind_eq_bind, Option.bind_some, Option.map_eq_bind]
    rfl
  · exact ⟨_, .char _, fun cs ↦ readPieces_cons h₁ h₂ h₈⟩

/-- A unit outside the surrogates is joined as a character of its own. -/
theorem joinPieces_unit {u : Nat} (h : u < 0xD800) :
    joinPieces (.unit u :: ps) = (joinPieces ps).map (Char.ofNat u :: ·) := by
  have hlead : isLead u = false := by simp [isLead]; omega
  have htrail : isTrail u = false := by simp [isTrail]; omega
  rcases ps with _ | ⟨_ | _, _⟩ <;> simp [joinPieces, hlead, htrail]

theorem Piece.Denotes.joinPieces_cons {p : Piece} (h : p.Denotes c) :
    joinPieces (p :: ps) = (joinPieces ps).map (c :: ·) := by
  cases h with
  | char => rw [joinPieces]
  | unit control => rw [joinPieces_unit (by omega), Char.ofNat_toNat]

/-- The characters between the quotes are read as pieces that join to the same characters. -/
theorem exists_readPieces (cs rest : List Char) :
    ∃ ps, readPieces (cs.flatMap escapeChar ++ '"' :: rest) = some (ps, rest)
      ∧ joinPieces ps = some cs := by
  induction cs with
  | nil => exact ⟨[], by simp [readPieces], rfl⟩
  | cons c cs ih =>
    obtain ⟨ps, hread, hjoin⟩ := ih
    obtain ⟨p, hp, hc⟩ := readPieces_escapeChar c
    refine ⟨p :: ps, ?_, ?_⟩
    · rw [List.flatMap_cons, List.append_assoc, hc, hread, Option.map_some]
    · rw [hp.joinPieces_cons, hjoin, Option.map_some]

/-- A literal of Unicode text is read back, whatever follows it. -/
theorem readStr_body (s : String) (rest : List Char) :
    readStr ((Str.text s).body ++ '"' :: rest) = some (.text s, rest) := by
  obtain ⟨ps, hread, hjoin⟩ := exists_readPieces s.toList rest
  simp [readStr, Str.body, hread, Str.ofPieces, hjoin]

/-! ### Numbers -/

/-- Text that does not go on with a number. -/
def EndsNumber (rest : List Char) : Prop :=
  ∀ c ∈ rest.head?, c.isDigit = false ∧ c ≠ '.' ∧ c ≠ 'e' ∧ c ≠ 'E'

theorem readDigits_append {ds : List Char} (hds : ∀ d ∈ ds, d.isDigit = true) (hne : ds ≠ [])
    (h : EndsNumber rest) : readDigits (ds ++ rest) = some (ds, rest) := by
  have hrest : rest.takeWhile Char.isDigit = [] ∧ rest.dropWhile Char.isDigit = rest := by
    cases rest with
    | nil => simp
    | cons c cs => simp [(h c rfl).1]
  obtain ⟨d, ds, rfl⟩ := List.exists_cons_of_ne_nil hne
  rw [readDigits, List.span_eq_takeWhile_dropWhile, List.takeWhile_append_of_pos hds,
    List.dropWhile_append_of_pos hds, hrest.1, hrest.2, List.append_nil]

/-- Only zero is written with a zero in front. -/
theorem eq_zero_of_head?_toDigits {n : Nat} (h : (Nat.toDigits 10 n).head? = some '0') : n = 0 := by
  induction n using Nat.strongRecOn with
  | ind n ih =>
    by_cases hn : n < 10
    · rw [Nat.toDigits_of_lt_base hn, List.head?_cons, Option.some.injEq] at h
      exact (by decide : ∀ n < 10, n.digitChar = '0' → n = 0) n hn h
    · rw [Nat.toDigits_of_base_le (by decide) (by omega),
        List.head?_append_of_ne_nil _ Nat.toDigits_ne_nil] at h
      have := ih (n / 10) (by omega) h
      omega

theorem toDigits_ne_zero_cons_cons (n : Nat) (d : Char) (ds : List Char) :
    Nat.toDigits 10 n ≠ '0' :: d :: ds := by
  intro h
  obtain rfl := eq_zero_of_head?_toDigits (n := n) (by rw [h, List.head?_cons])
  simp [Nat.toDigits_zero] at h

theorem readUnsigned_toDigits (n : Nat) (h : EndsNumber rest) :
    readUnsigned (Nat.toDigits 10 n ++ rest) = some (.natural n, rest) := by
  have hread : readDigits (Nat.toDigits 10 n ++ rest) = some (Nat.toDigits 10 n, rest) :=
    readDigits_append (fun d hd ↦ Nat.isDigit_of_mem_toDigits (by decide) (by decide) hd)
    Nat.toDigits_ne_nil h
  have hwhole : readWhole (Nat.toDigits 10 n ++ rest) = some (Nat.toDigits 10 n, rest) := by
    rw [readWhole, hread]
    split
    next heq =>
      simp only [Option.some.injEq, Prod.mk.injEq] at heq
      exact absurd heq.1 (toDigits_ne_zero_cons_cons n _ _)
    next => rfl
  have hfraction : readFraction rest = some ([], rest) := by
    unfold readFraction
    split
    next => exact absurd rfl (h '.' rfl).2.1
    next => rfl
  have hexponent : readExponent rest = some ([], rest) := by
    unfold readExponent
    split
    next => exact absurd rfl (h 'e' rfl).2.2.1
    next => exact absurd rfl (h 'E' rfl).2.2.2
    next => rfl
  simp [readUnsigned, hwhole, hfraction, hexponent]

end DeclExtract.Json
