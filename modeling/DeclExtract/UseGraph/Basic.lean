import Std.Data.HashMap
import DeclExtract.Batch
import DeclExtract.Order.Ascending

/-!
# Use graphs

The graph that a merge ends with: one node per declaration, numbered by its place, and the
identities under which each declaration has been seen. A node shows only one path and one position;
the two indexes know all of them.
-/

namespace DeclExtract

/-- The declarations of a merge and their references to one another. -/
structure UseGraph where
  nodes : Array Node
  /-- The node behind each object path that was seen. -/
  byPath : Std.HashMap ObjectPath Nat
  /-- The node behind each position with a column that was seen. -/
  byPosition : Std.HashMap Position Nat

namespace UseGraph

/-- The number of nodes. -/
def size (g : UseGraph) : Nat :=
  g.nodes.size

/-- The node with the given id. -/
def node? (g : UseGraph) (id : Nat) : Option Node :=
  g.nodes[id]?

/-- The root of the whole graph. -/
def root (g : UseGraph) : Node :=
  (g.node? 0).getD Node.root

/-- The node that an identity belongs to; a position without a column belongs to none. -/
def lookup (g : UseGraph) : Identity → Option Nat
  | .path p => g.byPath[p]?
  | .position p => if p.hasColumn then g.byPosition[p]? else none

/-- The ids of the declarations with the given name, in ascending order; a root is none. -/
def named (g : UseGraph) (name : String) : List Nat :=
  (g.nodes.toList.filter fun n ↦ n.kind ≠ .root && n.name == name).map Node.id

/-- Whether the node with the given id is a method. -/
def isMethod (g : UseGraph) (id : Nat) : Bool :=
  match g.node? id with
  | some n => n.kind == .method
  | none => false

/-- The methods that go wherever a node goes: those of the named type that it is declared with, as
far as they are in the graph, and, for a type, those that it contains. -/
def methods (g : UseGraph) (id : Nat) : List Nat :=
  match g.node? id with
  | none => []
  | some n =>
    let declared := (n.namedType.map NamedType.methods).getD []
    let contained := if n.kind = .type then n.owns.filter g.isMethod else []
    ascending (declared.filterMap g.lookup ++ contained)

/-- The nodes of the graph as a batch, which can be merged like any other. -/
def toBatch (g : UseGraph) : Batch :=
  ⟨g.nodes.toList⟩

end UseGraph

end DeclExtract
