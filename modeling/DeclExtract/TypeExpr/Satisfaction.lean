import DeclExtract.TypeExpr.Identical

/-!
# Satisfying an interface

A type satisfies an interface if it has a method for each of the interface's methods, with the same
identifier and an identical signature. The type is given either by its own interface or by the
method set of a concrete type; a concrete type also tells which of its methods stands for which
method of the interface, so that a use of the interface can be counted as a use of those methods.
-/

namespace DeclExtract

/-- The name that declares nothing and is never found. -/
def blankName : String := "_"

/-! ### Looking up methods -/

/-- The first method with the given identifier, together with its place; the blank name finds
nothing. -/
def Interface.find? (i : Interface) (wanted : Identifier) : Option (Nat × Method) :=
  if wanted.name == blankName then none
  else
    match i.methods.findIdx? fun m ↦ m.identifier.same wanted with
    | none => none
    | some place => i.methods[place]?.map fun m ↦ (place, m)

/-- The first method with the given identifier. -/
def MethodSet.find? (s : MethodSet) (wanted : Identifier) : Option Method :=
  s.methods.find? fun m ↦ m.identifier.same wanted

/-! ### Satisfaction -/

/-- The type that is tested against an interface. -/
inductive Implementor where
  /-- A type that is an interface itself. -/
  | interface (i : Interface)
  /-- A concrete type with its method set. -/
  | concrete (s : MethodSet)

/-- A method of an interface and the method that stands for it. -/
structure Binding where
  /-- The method that the interface asks for. -/
  required : Method
  /-- The method that the concrete type has. -/
  provided : Method

/-- The method of a concrete type that stands for a method of an interface. -/
def MethodSet.bind? (s : MethodSet) (m : Method) : Option Binding :=
  match s.find? m.identifier with
  | some found => if found.signature.identical m.signature then some ⟨m, found⟩ else none
  | none => none

/-- Whether an interface has what another interface asks for with one of its methods. -/
def Interface.provides (i : Interface) (m : Method) : Bool :=
  match i.find? m.identifier with
  | some (_, found) => found.signature.identical m.signature
  | none => false

/-- How a type satisfies an interface, or `none` if it does not. A concrete type binds each of the
interface's methods, in their order; an interface binds none, and neither does the empty interface,
which every type satisfies. -/
def Implementor.bindings? (v : Implementor) (t : Interface) : Option (List Binding) :=
  if t.methods.isEmpty then some []
  else
    match v with
    | .interface i => if t.methods.all i.provides then some [] else none
    | .concrete s => t.methods.mapM s.bind?

/-- Whether a type satisfies an interface. -/
def Implementor.satisfies (v : Implementor) (t : Interface) : Bool :=
  (v.bindings? t).isSome

end DeclExtract
