import DeclExtract.Declaration.Identity

/-!
# Nodes of use graphs

A node stands for one declaration. It says what the declaration is called, what kind it is, whether
it is visible outside its package, under which identities it can be recognised, and which other
nodes its definition uses or contains. Ids are positions in the list of nodes that a node belongs
to.

A node without any identity can only be the root of a batch: `Node.identities` is empty, and no
later batch can refer to it.
-/

namespace DeclExtract

/-- What a declaration declares. -/
inductive NodeKind where
  /-- A starting point that stands for no declaration of its own. -/
  | root
  | function
  | method
  | type
  | var
  | const
  | field
  deriving Repr, DecidableEq, Inhabited

namespace NodeKind

/-- All kinds, in the order in which reports list them. -/
def all : List NodeKind :=
  [.root, .function, .method, .type, .var, .const, .field]

/-- The name of a kind. -/
def text : NodeKind → String
  | .root => "root"
  | .function => "function"
  | .method => "method"
  | .type => "type"
  | .var => "var"
  | .const => "const"
  | .field => "field"

/-- The kind with the given name. -/
def named? (name : String) : Option NodeKind :=
  all.find? fun k ↦ k.text == name

/-- Every kind can be found again by its name. -/
theorem named?_text (k : NodeKind) : named? k.text = some k := by
  cases k <;> decide

end NodeKind

/-- How one declaration refers to another. -/
inductive EdgeKind where
  /-- The definition of the source mentions the target. -/
  | uses
  /-- The source contains the target, as a type contains its methods and fields. -/
  | owns
  deriving Repr, DecidableEq

namespace EdgeKind

/-- The name of a kind of edge. -/
def text : EdgeKind → String
  | .uses => "uses"
  | .owns => "owns"

/-- The kind of edge with the given name. -/
def named? (name : String) : Option EdgeKind :=
  [.uses, .owns].find? fun k ↦ k.text == name

/-- Every kind of edge can be found again by its name. -/
theorem named?_text (k : EdgeKind) : named? k.text = some k := by
  cases k <;> decide

end EdgeKind

/-- The named type that a declaration is declared with. -/
structure NamedType where
  /-- The name of the type. -/
  name : String
  /-- Where each method of its method set is declared. -/
  methods : List Identity
  deriving Repr, DecidableEq

/-- One declaration of a batch or of a use graph. -/
structure Node where
  /-- The place of the node in its list. -/
  id : Nat
  /-- The unqualified name; empty for a root. -/
  name : String
  /-- Whether the declaration is visible outside its package. -/
  exported : Bool
  /-- What is declared. -/
  kind : NodeKind
  /-- The object path, if there is one. -/
  path : Option ObjectPath := none
  /-- The position; the default position where none is known. -/
  position : Position := {}
  /-- The named type that the declaration is declared with, if any. -/
  namedType : Option NamedType := none
  /-- The ids of the declarations that the definition mentions, in order. -/
  uses : List Nat := []
  /-- The ids of the declarations that this one contains, in order. -/
  owns : List Nat := []
  /-- The ordinal under which a merge knows this node as the root of a batch. -/
  subgraph : Option Nat := none
  deriving Repr, DecidableEq

namespace Node

/-- The root of a batch: it has no name and no identity. -/
def root : Node :=
  { id := 0, name := "", exported := false, kind := .root }

instance : Inhabited Node := ⟨root⟩

/-- The object path, unless it is missing or names nothing. -/
def stablePath (n : Node) : Option ObjectPath :=
  n.path.filter fun p ↦ !p.isEmpty

/-- The position, unless it has no column. -/
def stablePosition (n : Node) : Option Position :=
  if n.position.hasColumn then some n.position else none

/-- Every identity under which the node can be recognised: its path before its position. -/
def identities (n : Node) : List Identity :=
  (n.stablePath.map Identity.path).toList ++ (n.stablePosition.map Identity.position).toList

/-- Whether the node can be recognised in another batch. -/
def hasIdentity (n : Node) : Bool :=
  n.stablePath.isSome || n.stablePosition.isSome

theorem path_mem_identities {n : Node} {p : ObjectPath} :
    .path p ∈ n.identities ↔ n.stablePath = some p := by
  simp [identities]

theorem position_mem_identities {n : Node} {p : Position} :
    .position p ∈ n.identities ↔ n.stablePosition = some p := by
  simp [identities]

/-- Having an identity is having at least one. -/
theorem hasIdentity_iff {n : Node} : n.hasIdentity = true ↔ n.identities ≠ [] := by
  unfold hasIdentity identities
  cases n.stablePath <;> cases n.stablePosition <;> simp

end Node

end DeclExtract
