/-!
# Identities of declarations

A declaration is recognised across batches by its object path or by its position. Neither is always
good enough: an empty object path names nothing, and a position without a column is shared by every
declaration on its line. `Node.identities` offers only the good ones.
-/

namespace DeclExtract

/-- The name of a declaration within compiled or indexed code: an import path and a path of the
object inside that package. -/
structure ObjectPath where
  /-- The import path of the declaring package. -/
  package : String
  /-- The path of the object inside its package. -/
  object : String
  deriving Repr, DecidableEq, Hashable, Inhabited

namespace ObjectPath

/-- An object path without an object names nothing. -/
def isEmpty (p : ObjectPath) : Bool :=
  p.object.isEmpty

/-- The package, a point, and the object. -/
def text (p : ObjectPath) : String :=
  p.package ++ "." ++ p.object

end ObjectPath

/-- A place in the source text. -/
structure Position where
  /-- The file that holds the declaration. -/
  file : String := ""
  /-- The line, counted from one; zero where nothing is known. -/
  line : UInt32 := 0
  /-- The column, counted from one, if the source gave it. -/
  column : Option UInt32 := none
  deriving Repr, DecidableEq, Hashable, Inhabited

namespace Position

/-- Whether the position is precise enough to tell declarations apart. -/
def hasColumn (p : Position) : Bool :=
  p.column.isSome

/-- File, line and, if known, column, with colons between them. -/
def text (p : Position) : String :=
  match p.column with
  | some column => p.file ++ ":" ++ toString p.line.toNat ++ ":" ++ toString column.toNat
  | none => p.file ++ ":" ++ toString p.line.toNat

end Position

/-- One way to name a declaration without the ids of any graph. -/
inductive Identity where
  | path (p : ObjectPath)
  | position (p : Position)
  deriving Repr, DecidableEq, Hashable

namespace Identity

/-- The text of the path or of the position. -/
def text : Identity → String
  | .path p => p.text
  | .position p => p.text

end Identity

end DeclExtract
