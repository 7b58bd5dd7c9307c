import DeclExtract.Json.Basic

/-!
# Decoding JSON values

How a value of the library is taken from a JSON value. A decoder spends one unit of its budget on
every array or object that it enters, so the budget bounds the nesting that it follows; what it does
not look into may nest as deeply as it likes.

A record is an object or, with the same fields in the same order, an array. Keys of an object that
are no fields are skipped, and a field that is given twice is refused. In an array, the fields at
the end may be left out if they have a default.
-/

namespace DeclExtract.Json

/-- How deep a JSON text may nest where it is decoded. -/
def depthLimit : Nat := 127

/-- Takes a value from a JSON value that nests no deeper than the budget. -/
abbrev Decoder (α : Type) := Nat → Json → Option α

/-! ### Plain values -/

/-- Unicode text. -/
def asText : Json → Option String
  | .string (.text s) => some s
  | _ => none

/-- A truth value. -/
def asBool : Json → Option Bool
  | .bool b => some b
  | _ => none

/-- A natural number below a bound. -/
def asNat (bound : Nat) : Json → Option Nat
  | .natural n => if n < bound then some n else none
  | _ => none

/-- An id, a count of lines or columns, or an ordinal: a number of 32 bits. -/
def asId (j : Json) : Option Nat :=
  asNat UInt32.size j

/-- A number of nodes or edges: a number of 64 bits. -/
def asCount (j : Json) : Option Nat :=
  asNat UInt64.size j

/-- A word of 32 bits. -/
def asWord32 (j : Json) : Option UInt32 :=
  (asNat UInt32.size j).map UInt32.ofNat

/-- A word of 64 bits. -/
def asWord64 (j : Json) : Option UInt64 :=
  (asNat UInt64.size j).map UInt64.ofNat

/-- An optional value, with `null` for absence. -/
def asOption {α : Type} (decode : Json → Option α) : Json → Option (Option α)
  | .null => some none
  | j => (decode j).map some

/-! ### Containers -/

/-- An array of values. -/
def asList {α : Type} (decode : Decoder α) : Decoder (List α)
  | budget + 1, .array items => items.mapM (decode budget)
  | _, _ => none

/-- The name of one of several plain alternatives, alone or as the key of `null`. -/
def asAlternative {α : Type} (named : String → Option α) : Decoder α
  | _, .string (.text s) => named s
  | _ + 1, .object [(.text s, .null)] => named s
  | _, _ => none

/-- The name and the content of one of several alternatives: the only member of an object. -/
def asVariant : Json → Option (String × Json)
  | .object [(.text s, content)] => some (s, content)
  | _ => none

/-! ### Records -/

/-- The contents of a record, by name or by place. -/
inductive Record where
  | named (members : List (String × Json))
  | placed (items : List Json)

/-- The key of a member, which has to be text. -/
def memberName : Str × Json → Option (String × Json)
  | (.text k, v) => some (k, v)
  | (.unpaired _, _) => none

/-- A record with at most the given number of fields. -/
def asRecord (fields : Nat) : Json → Option Record
  | .object members => (members.mapM memberName).map .named
  | .array items => if items.length ≤ fields then some (.placed items) else none
  | _ => none

/-- Where a JSON value was met. -/
inductive Origin where
  /-- As the whole of a text. -/
  | text
  /-- Inside another value, which had been read as a whole before. -/
  | value
  deriving Repr, DecidableEq

/-- The record under the name of an alternative. It is an array only in a text that is read for its
sake. -/
def asContent (origin : Origin) (fields : Nat) (j : Json) : Option Record :=
  match origin, j with
  | .value, .array _ => none
  | _, _ => asRecord fields j

namespace Record

/-- The value given for a field, if one is; `none` if the field is given twice. -/
def given? (r : Record) (place : Nat) (name : String) : Option (Option Json) :=
  match r with
  | .named members =>
    match members.filter fun m ↦ m.1 == name with
    | [] => some none
    | [(_, v)] => some (some v)
    | _ => none
  | .placed items => some items[place]?

/-- A field that has to be there. -/
def required {α : Type} (r : Record) (place : Nat) (name : String) (decode : Json → Option α) :
    Option α :=
  match r.given? place name with
  | some (some v) => decode v
  | _ => none

/-- A field with a default for the case that it is left out. -/
def withDefault {α : Type} (r : Record) (place : Nat) (name : String) (default : α)
    (decode : Json → Option α) : Option α :=
  match r.given? place name with
  | some (some v) => decode v
  | some none => some default
  | none => none

/-- A field that is absent when it is left out or `null`. -/
def optional {α : Type} (r : Record) (place : Nat) (name : String) (decode : Json → Option α) :
    Option (Option α) :=
  r.withDefault place name none (asOption decode)

end Record

end DeclExtract.Json
