import DeclExtract.Declaration.Identity
import DeclExtract.Text.Uppercase

/-!
# Types in signatures

As much of a type system as it takes to compare the signatures of methods: basic and named types,
the type constructors, function types, interface types and struct types. Types, signatures, methods,
interfaces and fields refer to one another, so they are declared together.

A name that is not exported is scoped to its package: `Identifier.same` is the relation between
names that the comparison of fields and methods rests on.
-/

namespace DeclExtract

/-! ### Identifiers -/

/-- A name with the package that declares it, if one is recorded. -/
structure Identifier where
  name : String
  package : Option String
  deriving Repr, DecidableEq

namespace Identifier

/-- Whether the name is visible outside its package: it starts with an upper-case character. -/
def exported (i : Identifier) : Bool :=
  Text.startsUppercase i.name

/-- Whether two identifiers are one: they are spelled alike, and they are exported or belong to one
package. -/
def same (i j : Identifier) : Bool :=
  i.name == j.name && (i.exported || i.package == j.package)

/-- Sameness of identifiers, read as a proposition. -/
theorem same_iff {i j : Identifier} :
    i.same j = true ↔ i.name = j.name ∧ (i.exported = true ∨ i.package = j.package) := by
  simp [same]

end Identifier

/-! ### Types, signatures, methods and fields -/

/-- Which way values travel through a channel. -/
inductive Direction where
  | both
  | send
  | recv
  deriving Repr, DecidableEq

namespace Direction

/-- The name of a direction. -/
def text : Direction → String
  | .both => "both"
  | .send => "send"
  | .recv => "recv"

/-- The direction with the given name. -/
def named? (name : String) : Option Direction :=
  [.both, .send, .recv].find? fun d ↦ d.text == name

/-- Every direction can be found again by its name. -/
theorem named?_text (d : Direction) : named? d.text = some d := by
  cases d <;> decide

end Direction

mutual

/-- A type as it appears in a signature. -/
inductive TypeExpr where
  /-- A predeclared type. -/
  | basic (name : String)
  /-- A declared type, known by its package and name. -/
  | named (package : Option String) (name : String)
  | pointer (elem : TypeExpr)
  | slice (elem : TypeExpr)
  | array (len : UInt64) (elem : TypeExpr)
  | map (key value : TypeExpr)
  | chan (dir : Direction) (elem : TypeExpr)
  | func (signature : Signature)
  | interface (i : Interface)
  | struct (fields : List Field)

/-- The signature of a function or method. Parameters have no names. -/
structure Signature where
  params : List TypeExpr
  results : List TypeExpr
  /-- Whether the last parameter takes any number of arguments. -/
  variadic : Bool

/-- A method: an identifier with a signature, and the declaration it comes from, if known. -/
structure Method where
  name : String
  package : Option String
  signature : Signature
  /-- Where the method is declared. -/
  identity : Option Identity

/-- An interface type: the methods that a type needs to satisfy it. -/
structure Interface where
  methods : List Method

/-- A field of a struct type. -/
structure Field where
  name : String
  package : Option String
  type : TypeExpr
  /-- Whether the field's methods are promoted to the struct. -/
  embedded : Bool

end

instance : Inhabited TypeExpr := ⟨.basic ""⟩
instance : Inhabited Signature := ⟨⟨[], [], false⟩⟩
instance : Inhabited Method := ⟨⟨"", none, default, none⟩⟩

/-- The methods that can be called on a concrete type. -/
structure MethodSet where
  methods : List Method

namespace Method

/-- The identifier of a method. -/
def identifier (m : Method) : Identifier :=
  ⟨m.name, m.package⟩

end Method

namespace Field

/-- The identifier of a field. -/
def identifier (f : Field) : Identifier :=
  ⟨f.name, f.package⟩

end Field

end DeclExtract
