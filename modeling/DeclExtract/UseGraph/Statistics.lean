import DeclExtract.UseGraph.Basic

/-!
# Statistics of use graphs

How many nodes and edges a graph has, and how many nodes of each kind. Kinds are listed in their own
order, and a kind without nodes is not listed.
-/

namespace DeclExtract

/-- The numbers that describe a use graph. -/
structure Statistics where
  /-- All nodes, the root included. -/
  nodes : Nat
  useEdges : Nat
  ownsEdges : Nat
  /-- The nodes that are visible outside their packages. -/
  exported : Nat
  /-- The number of nodes of each kind, for the kinds that occur. -/
  byKind : List (NodeKind × Nat)
  deriving Repr, DecidableEq

namespace Statistics

/-- The counts that a function gives for the kinds, in the order of the kinds. -/
def listKinds (count : NodeKind → Option Nat) : List (NodeKind × Nat) :=
  NodeKind.all.filterMap fun k ↦ (count k).map fun n ↦ (k, n)

/-- One line for the totals and one, indented, for each kind. -/
def text (s : Statistics) : String :=
  toString s.nodes ++ " nodes (" ++ toString s.exported ++ " exported), " ++ toString s.useEdges
    ++ " uses edges, " ++ toString s.ownsEdges ++ " owns edges"
    ++ String.join (s.byKind.map fun (k, n) ↦ "\n  " ++ k.text ++ ": " ++ toString n)

end Statistics

namespace UseGraph

/-- How many nodes of a kind there are, if any. -/
def countOf (g : UseGraph) (k : NodeKind) : Option Nat :=
  match g.nodes.countP fun n ↦ n.kind == k with
  | 0 => none
  | n + 1 => some (n + 1)

/-- The statistics of a graph. -/
def statistics (g : UseGraph) : Statistics where
  nodes := g.size
  useEdges := (g.nodes.toList.flatMap Node.uses).length
  ownsEdges := (g.nodes.toList.flatMap Node.owns).length
  exported := g.nodes.countP Node.exported
  byKind := Statistics.listKinds g.countOf

end UseGraph

end DeclExtract
