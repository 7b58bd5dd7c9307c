/-!
# JSON values

The values that JSON text denotes. Two things that a reader of the text may never look at are kept
as written, because the text is well formed all the same: a number that is not a natural number, and
a string whose `\u` escapes leave a surrogate without its partner, so that it is no Unicode text.
-/

namespace DeclExtract

namespace Json

/-- One element of a string literal: a character, or the 16-bit unit of a `\u` escape. -/
inductive Piece where
  | char (c : Char)
  | unit (u : Nat)
  deriving Repr, DecidableEq

/-- What a string literal denotes. -/
inductive Str where
  /-- Unicode text. -/
  | text (s : String)
  /-- A literal with an unpaired surrogate, which denotes no text. -/
  | unpaired (pieces : List Piece)
  deriving Repr, DecidableEq

end Json

/-- A JSON value. An object keeps its members in the order of the text, repeated keys included. -/
inductive Json where
  | null
  | bool (b : Bool)
  /-- A number written with digits alone. -/
  | natural (n : Nat)
  /-- Any other number, as written. -/
  | number (literal : List Char)
  | string (s : Json.Str)
  | array (items : List Json)
  | object (members : List (Json.Str × Json))
  deriving Repr

namespace Json

/-- A string value made of Unicode text. -/
def ofText (s : String) : Json :=
  .string (.text s)

/-- An object with the given keys and values, in the given order. -/
def record (members : List (String × Json)) : Json :=
  .object (members.map fun (k, v) ↦ (.text k, v))

/-- The value of an optional field: `null` stands for absence. -/
def ofOption {α : Type} (encode : α → Json) : Option α → Json
  | none => .null
  | some a => encode a

/-- An array of encoded values. -/
def ofList {α : Type} (encode : α → Json) (xs : List α) : Json :=
  .array (xs.map encode)

end Json

end DeclExtract
