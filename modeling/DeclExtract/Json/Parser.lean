import DeclExtract.Json.Basic
import DeclExtract.Text.Hexadecimal

/-!
# Reading JSON text

A reader for the strict grammar of JSON: no comments, no trailing commas, no raw control characters
inside strings, and nothing but blanks around the one value. Every reader returns what it read
together with the rest of the text, or `none` where the text breaks the grammar. Depth is not
limited here; a decoder that follows the value limits the depth it follows.

The grammar is recursive, so the reader of values carries an explicit bound on its steps. Each step
into or along a container consumes a character, or is followed by one that does, so twice the length
of the text is never exceeded.
-/

namespace DeclExtract.Json

open Text

/-- The four characters that may stand between tokens. -/
def isBlank (c : Char) : Bool :=
  c = ' ' || c = '\n' || c = '\t' || c = '\r'

/-- The text without its leading blanks. -/
def skipBlanks (cs : List Char) : List Char :=
  cs.dropWhile isBlank

/-! ### Numbers -/

/-- One or more digits. -/
def readDigits (cs : List Char) : Option (List Char × List Char) :=
  match cs.span Char.isDigit with
  | ([], _) => none
  | (d :: ds, rest) => some (d :: ds, rest)

/-- The digits before the point: a leading zero stands alone. -/
def readWhole (cs : List Char) : Option (List Char × List Char) :=
  match readDigits cs with
  | some ('0' :: _ :: _, _) => none
  | result => result

/-- A fraction, if a point comes first. -/
def readFraction : List Char → Option (List Char × List Char)
  | '.' :: cs => (readDigits cs).map fun (ds, rest) ↦ ('.' :: ds, rest)
  | cs => some ([], cs)

/-- The digits of an exponent after its optional sign. -/
def readSigned : List Char → Option (List Char × List Char)
  | '+' :: cs => (readDigits cs).map fun (ds, rest) ↦ ('+' :: ds, rest)
  | '-' :: cs => (readDigits cs).map fun (ds, rest) ↦ ('-' :: ds, rest)
  | cs => readDigits cs

/-- An exponent, if its mark comes first. -/
def readExponent : List Char → Option (List Char × List Char)
  | 'e' :: cs => (readSigned cs).map fun (ds, rest) ↦ ('e' :: ds, rest)
  | 'E' :: cs => (readSigned cs).map fun (ds, rest) ↦ ('E' :: ds, rest)
  | cs => some ([], cs)

/-- A number without its sign: digits alone are a natural number, anything else is kept as
written. -/
def readUnsigned (cs : List Char) : Option (Json × List Char) := do
  let (whole, cs) ← readWhole cs
  let (fraction, cs) ← readFraction cs
  let (exponent, cs) ← readExponent cs
  match fraction, exponent with
  | [], [] => some (.natural (Nat.ofDigitChars 10 whole 0), cs)
  | _, _ => some (.number (whole ++ fraction ++ exponent), cs)

/-- A number. -/
def readNumber : List Char → Option (Json × List Char)
  | '-' :: cs => do
    let (whole, cs) ← readWhole cs
    let (fraction, cs) ← readFraction cs
    let (exponent, cs) ← readExponent cs
    some (.number ('-' :: whole ++ fraction ++ exponent), cs)
  | cs => readUnsigned cs

/-! ### Strings -/

/-- The value of four hexadecimal digits. -/
def unitValue (a b c d : Char) : Option Nat := do
  let a ← Hexadecimal.value? a
  let b ← Hexadecimal.value? b
  let c ← Hexadecimal.value? c
  let d ← Hexadecimal.value? d
  some (4096 * a + 256 * b + 16 * c + d)

/-- The character that an escape of one letter stands for. -/
def letterEscape : Char → Option Char
  | '"' => some '"'
  | '\\' => some '\\'
  | '/' => some '/'
  | 'b' => some '\x08'
  | 'f' => some '\x0c'
  | 'n' => some '\n'
  | 'r' => some '\r'
  | 't' => some '\t'
  | _ => none

/-- The pieces of a string literal up to its closing quote. -/
def readPieces : List Char → Option (List Piece × List Char)
  | [] => none
  | '"' :: cs => some ([], cs)
  | '\\' :: 'u' :: a :: b :: c :: d :: cs => do
    let u ← unitValue a b c d
    let (ps, rest) ← readPieces cs
    some (.unit u :: ps, rest)
  | '\\' :: e :: cs => do
    let c ← letterEscape e
    let (ps, rest) ← readPieces cs
    some (.char c :: ps, rest)
  | c :: cs =>
    if c.toNat < 32 ∨ c = '\\' then none
    else do
      let (ps, rest) ← readPieces cs
      some (.char c :: ps, rest)

/-- Whether a unit is the first half of a surrogate pair. -/
def isLead (u : Nat) : Bool :=
  0xD800 ≤ u && u < 0xDC00

/-- Whether a unit is the second half of a surrogate pair. -/
def isTrail (u : Nat) : Bool :=
  0xDC00 ≤ u && u < 0xE000

/-- The text that pieces denote, where every surrogate has its partner. -/
def joinPieces : List Piece → Option (List Char)
  | [] => some []
  | .char c :: ps => (joinPieces ps).map (c :: ·)
  | .unit u :: .unit v :: ps =>
    if isLead u then
      if isTrail v then
        (joinPieces ps).map (Char.ofNat (0x10000 + (u - 0xD800) * 1024 + (v - 0xDC00)) :: ·)
      else none
    else if isTrail u then none
    else (joinPieces (.unit v :: ps)).map (Char.ofNat u :: ·)
  | .unit u :: ps =>
    if isLead u || isTrail u then none else (joinPieces ps).map (Char.ofNat u :: ·)

/-- What the pieces of a literal denote. -/
def Str.ofPieces (ps : List Piece) : Str :=
  match joinPieces ps with
  | some cs => .text (String.ofList cs)
  | none => .unpaired ps

/-- A string literal after its opening quote. -/
def readStr (cs : List Char) : Option (Str × List Char) :=
  (readPieces cs).map fun (ps, rest) ↦ (Str.ofPieces ps, rest)

/-- An object's key and the colon after it. -/
def readKey (cs : List Char) : Option (Str × List Char) :=
  match skipBlanks cs with
  | '"' :: cs =>
    match readStr cs with
    | some (k, cs) =>
      match skipBlanks cs with
      | ':' :: cs => some (k, cs)
      | _ => none
    | none => none
  | _ => none

/-! ### Values -/

mutual

/-- One value after any blanks; the first argument bounds the number of steps. -/
def readValue : Nat → List Char → Option (Json × List Char)
  | 0, _ => none
  | steps + 1, cs =>
    match skipBlanks cs with
    | 'n' :: 'u' :: 'l' :: 'l' :: cs => some (.null, cs)
    | 't' :: 'r' :: 'u' :: 'e' :: cs => some (.bool true, cs)
    | 'f' :: 'a' :: 'l' :: 's' :: 'e' :: cs => some (.bool false, cs)
    | '"' :: cs => (readStr cs).map fun (s, rest) ↦ (.string s, rest)
    | '[' :: cs =>
      match skipBlanks cs with
      | ']' :: cs => some (.array [], cs)
      | cs => (readItems steps cs).map fun (xs, rest) ↦ (.array xs, rest)
    | '\x7b' :: cs =>
      match skipBlanks cs with
      | '\x7d' :: cs => some (.object [], cs)
      | cs => (readMembers steps cs).map fun (ms, rest) ↦ (.object ms, rest)
    | cs => readNumber cs

/-- The items of an array up to its closing bracket. -/
def readItems : Nat → List Char → Option (List Json × List Char)
  | 0, _ => none
  | steps + 1, cs =>
    match readValue steps cs with
    | none => none
    | some (x, cs) =>
      match skipBlanks cs with
      | ']' :: cs => some ([x], cs)
      | ',' :: cs => (readItems steps cs).map fun (xs, rest) ↦ (x :: xs, rest)
      | _ => none

/-- The members of an object up to its closing brace. -/
def readMembers : Nat → List Char → Option (List (Str × Json) × List Char)
  | 0, _ => none
  | steps + 1, cs =>
    match readKey cs with
    | none => none
    | some (k, cs) =>
      match readValue steps cs with
      | none => none
      | some (v, cs) =>
        match skipBlanks cs with
        | '\x7d' :: cs => some ([(k, v)], cs)
        | ',' :: cs => (readMembers steps cs).map fun (ms, rest) ↦ ((k, v) :: ms, rest)
        | _ => none

end

/-- The value of a JSON text, if it is one. -/
def parse (text : String) : Option Json :=
  let cs := text.toList
  match readValue (2 * cs.length + 2) cs with
  | some (j, rest) => if skipBlanks rest = [] then some j else none
  | none => none

end DeclExtract.Json
