/-!
# Ranges of code points

A property of characters is given as a list of ranges. Case comes in alternating pairs over long
stretches of Unicode, so a range has a step.
-/

namespace DeclExtract.Text

/-- The code points `first`, `first + step`, `first + 2 * step`, … that do not exceed `last`. -/
structure CodeRange where
  /-- The least code point of the range. -/
  first : Nat
  /-- An upper bound of the range. -/
  last : Nat
  /-- The distance between neighbours; `1` for an unbroken range. -/
  step : Nat
  deriving Repr, DecidableEq

namespace CodeRange

/-- Whether a code point lies in the range. -/
def contains (r : CodeRange) (code : Nat) : Bool :=
  r.first ≤ code && code ≤ r.last && (code - r.first) % r.step == 0

/-- Membership in a range, read as arithmetic. -/
theorem contains_iff {r : CodeRange} {code : Nat} :
    r.contains code = true ↔
      r.first ≤ code ∧ code ≤ r.last ∧ (code - r.first) % r.step = 0 := by
  simp [contains, and_assoc]

end CodeRange

end DeclExtract.Text
