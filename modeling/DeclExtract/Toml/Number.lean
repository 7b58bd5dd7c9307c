import DeclExtract.Text.Hexadecimal

/-!
# Numbers of TOML text

When a bare word, or a few tokens around a decimal point, are a number. Integers have 64 bits and a
sign; digits may be grouped by single underscores, and a decimal number does not start with a
superfluous zero. A decimal number has to be finite as a double: `isFinite` compares it, in exact
arithmetic, with the least number that rounds to infinity.
-/

namespace DeclExtract.Toml.Number

/-! ### Runs of digits -/

/-- How a run of digits is to be read. -/
structure Reading where
  radix : Nat
  /-- Whether a sign may stand in front. -/
  signed : Bool
  /-- Whether digits may follow a leading zero. -/
  leadingZeros : Bool

/-- Whether a character is a digit of the radix. -/
def Reading.isDigit (r : Reading) (c : Char) : Bool :=
  match Text.Hexadecimal.value? c with
  | some d => d < r.radix
  | none => false

/-- Digits after at least one digit: those of the run, without underscores, and what follows. The
run is refused where it ends in an underscore or has a digit too many after a leading zero. -/
def readMore (r : Reading) (zeroFirst : Bool) : Bool → List Char → Option (List Char × List Char)
  | underscore, [] => if underscore then none else some ([], [])
  | underscore, c :: cs =>
    if r.isDigit c then
      if zeroFirst && !r.leadingZeros then none
      else (readMore r zeroFirst false cs).map fun (ds, rest) ↦ (c :: ds, rest)
    else if c = '_' && !underscore then readMore r zeroFirst true cs
    else if underscore then none
    else some ([], c :: cs)

/-- A run of digits: its digits and what follows it. -/
def readDigits (r : Reading) : List Char → Option (List Char × List Char)
  | [] => none
  | c :: cs =>
    if r.isDigit c then (readMore r (c = '0') false cs).map fun (ds, rest) ↦ (c :: ds, rest)
    else none

/-- A run of digits with its sign, if it may have one: whether it is negative, its digits, and what
follows. -/
def readRun (r : Reading) : List Char → Option (Bool × List Char × List Char)
  | '+' :: cs => if r.signed then (readDigits r cs).map (false, ·) else none
  | '-' :: cs => if r.signed then (readDigits r cs).map (true, ·) else none
  | cs => (readDigits r cs).map (false, ·)

/-- The number that digits denote. -/
def ofDigits (radix : Nat) (ds : List Char) : Nat :=
  ds.foldl (fun n c ↦ radix * n + (Text.Hexadecimal.value? c).getD 0) 0

/-! ### Integers -/

/-- Whether a word is an integer of 64 bits. -/
def isInteger (r : Reading) (word : List Char) : Bool :=
  match readRun r word with
  | some (negative, ds, []) =>
    let n := ofDigits r.radix ds
    if negative then n ≤ Nat.pow 2 63 else n < Nat.pow 2 63
  | _ => false

/-- Decimal integers. -/
def decimal : Reading := ⟨10, true, false⟩

/-- Whether a word without point and exponent is an integer in any of the four radixes. -/
def isIntegerWord : List Char → Bool
  | '0' :: 'x' :: cs => isInteger ⟨16, false, true⟩ cs
  | '0' :: 'o' :: cs => isInteger ⟨8, false, true⟩ cs
  | '0' :: 'b' :: cs => isInteger ⟨2, false, true⟩ cs
  | cs => isInteger decimal cs

/-! ### Decimal numbers -/

/-- The least number that is rounded to infinity: half way from the greatest double to the power of
two above it. -/
def overflow : Nat := Nat.pow 2 1024 - Nat.pow 2 970

/-- Whether the number with the given digits, of which the last `places` stand behind the point,
times a power of ten, is finite as a double. -/
def isFinite (ds : List Char) (places : Nat) (negative : Bool) (exponent : Nat) : Bool :=
  let n := ofDigits 10 ds
  let up := if negative then 0 else exponent
  let down := if negative then places + exponent else places
  if n = 0 then true
  else if down + 400 ≤ up then false
  else if up + ds.length ≤ down then true
  else n * Nat.pow 10 (up - down) < overflow * Nat.pow 10 (down - up)

/-- The digits behind a decimal point. -/
def fractionDigits : Reading := ⟨10, false, true⟩

/-- The digits of an exponent that is part of the word before it. -/
def exponentDigits : Reading := ⟨10, true, true⟩

/-- Whether the digits of an integral part and of a fraction, and the exponent that is left behind
them, make a number. -/
def isDecimal (whole fraction : List Char) (exponent : Option (Bool × List Char)) : Bool :=
  match exponent with
  | none => isFinite (whole ++ fraction) fraction.length false 0
  | some (negative, ds) => isFinite (whole ++ fraction) fraction.length negative (ofDigits 10 ds)

end DeclExtract.Toml.Number
