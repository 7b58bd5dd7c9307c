import DeclExtract.Json.Basic
import DeclExtract.Text.Hexadecimal

/-!
# JSON text

Two layouts of one grammar. The compact layout has no blanks at all; the indented one puts every
member on a line of its own, two spaces deeper than its container, and writes an empty container as
`[]` or `{}`.

Each writer takes the text that follows the value and puts the value in front of it. So writing is
linear in the length of the result, and a statement about reading back what was written holds with
any continuation.
-/

namespace DeclExtract.Json

open Text.Hexadecimal

/-! ### Strings -/

/-- The four-digit escape of a 16-bit unit. -/
def unitEscape (u : Nat) : List Char :=
  ['\\', 'u', digit (u / 4096 % 16), digit (u / 256 % 16), digit (u / 16 % 16), digit (u % 16)]

/-- A character inside a string literal: quotes, backslashes and control characters are escaped,
everything else stands for itself. -/
def escapeChar (c : Char) : List Char :=
  if c = '"' then ['\\', '"']
  else if c = '\\' then ['\\', '\\']
  else if c = '\x08' then ['\\', 'b']
  else if c = '\x0c' then ['\\', 'f']
  else if c = '\n' then ['\\', 'n']
  else if c = '\r' then ['\\', 'r']
  else if c = '\t' then ['\\', 't']
  else if c.toNat < 32 then unitEscape c.toNat
  else [c]

/-- One piece of a literal that denotes no text. -/
def escapePiece : Piece → List Char
  | .char c => escapeChar c
  | .unit u => unitEscape u

/-- What stands between the quotes of a string literal. -/
def Str.body : Str → List Char
  | .text s => s.toList.flatMap escapeChar
  | .unpaired ps => ps.flatMap escapePiece

/-- A string literal followed by `rest`. -/
def writeStr (s : Str) (rest : List Char) : List Char :=
  '"' :: s.body ++ '"' :: rest

/-! ### The compact layout -/

mutual

/-- A value without blanks, followed by `rest`. -/
def write : Json → List Char → List Char
  | .null, rest => "null".toList ++ rest
  | .bool true, rest => "true".toList ++ rest
  | .bool false, rest => "false".toList ++ rest
  | .natural n, rest => Nat.toDigits 10 n ++ rest
  | .number literal, rest => literal ++ rest
  | .string s, rest => writeStr s rest
  | .array [], rest => '[' :: ']' :: rest
  | .array (x :: xs), rest => '[' :: write x (writeItems xs rest)
  | .object [], rest => '\x7b' :: '\x7d' :: rest
  | .object ((k, v) :: ms), rest => '\x7b' :: writeStr k (':' :: write v (writeMembers ms rest))

/-- The items after the first one, the closing bracket, and `rest`. -/
def writeItems : List Json → List Char → List Char
  | [], rest => ']' :: rest
  | x :: xs, rest => ',' :: write x (writeItems xs rest)

/-- The members after the first one, the closing brace, and `rest`. -/
def writeMembers : List (Str × Json) → List Char → List Char
  | [], rest => '\x7d' :: rest
  | (k, v) :: ms, rest => ',' :: writeStr k (':' :: write v (writeMembers ms rest))

end

/-- The compact text of a value. -/
def compact (j : Json) : String :=
  String.ofList (write j [])

/-! ### The indented layout -/

/-- A new line at the given depth, followed by `rest`. -/
def newLine (depth : Nat) (rest : List Char) : List Char :=
  '\n' :: (List.replicate (2 * depth) ' ' ++ rest)

mutual

/-- A value at the given depth, followed by `rest`. -/
def writeIndented : Nat → Json → List Char → List Char
  | depth, .array (x :: xs), rest =>
    '[' :: newLine (depth + 1) (writeIndented (depth + 1) x (writeIndentedItems depth xs rest))
  | depth, .object ((k, v) :: ms), rest =>
    '\x7b' :: newLine (depth + 1)
      (writeStr k (':' :: ' ' :: writeIndented (depth + 1) v (writeIndentedMembers depth ms rest)))
  | _, j, rest => write j rest

/-- The items after the first one, the closing bracket on its own line, and `rest`. -/
def writeIndentedItems : Nat → List Json → List Char → List Char
  | depth, [], rest => newLine depth (']' :: rest)
  | depth, x :: xs, rest =>
    ',' :: newLine (depth + 1) (writeIndented (depth + 1) x (writeIndentedItems depth xs rest))

/-- The members after the first one, the closing brace on its own line, and `rest`. -/
def writeIndentedMembers : Nat → List (Str × Json) → List Char → List Char
  | depth, [], rest => newLine depth ('\x7d' :: rest)
  | depth, (k, v) :: ms, rest =>
    ',' :: newLine (depth + 1)
      (writeStr k (':' :: ' ' :: writeIndented (depth + 1) v (writeIndentedMembers depth ms rest)))

end

/-- The indented text of a value. -/
def indented (j : Json) : String :=
  String.ofList (writeIndented 0 j [])

end DeclExtract.Json
