/-!
# Hexadecimal digits

Digits are read in either case and written in lower case; `value?_digit` says that what is written
is read back.
-/

namespace DeclExtract.Text.Hexadecimal

/-- The digit of a number below sixteen. -/
def digit (n : Nat) : Char :=
  Nat.digitChar n

/-- The value of a digit. -/
def value? (c : Char) : Option Nat :=
  if '0' ≤ c ∧ c ≤ '9' then some (c.toNat - 48)
  else if 'a' ≤ c ∧ c ≤ 'f' then some (c.toNat - 87)
  else if 'A' ≤ c ∧ c ≤ 'F' then some (c.toNat - 55)
  else none

theorem value?_digit : ∀ n < 16, value? (digit n) = some n := by
  decide

/-- The number that digits denote, most significant first. -/
def number? (digits : List Char) : Option Nat :=
  (digits.mapM value?).map fun values ↦ values.foldl (fun n d ↦ 16 * n + d) 0

/-- A number without leading zeros. -/
def digits (n : Nat) : List Char :=
  Nat.toDigits 16 n

end DeclExtract.Text.Hexadecimal
