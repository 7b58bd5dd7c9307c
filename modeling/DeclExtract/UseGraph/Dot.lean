import DeclExtract.UseGraph.Basic

/-!
# Drawings of use graphs

A graph as text in the DOT language: one line per node in the order of ids, then one line per edge,
node by node, the uses of a node before what it owns. A label stands between quotes, so quotes and
backslashes in it are escaped and a line break becomes `\l`; a name can neither end its label nor
start a line.
-/

namespace DeclExtract

/-- An edge of a graph. -/
structure Edge where
  source : Nat
  target : Nat
  kind : EdgeKind
  deriving Repr, DecidableEq

namespace UseGraph

/-! ### Edges -/

/-- The edges that start at a node. -/
def edgesFrom (n : Node) (withOwns : Bool) : List Edge :=
  n.uses.map (fun target ↦ ⟨n.id, target, .uses⟩)
    ++ if withOwns then n.owns.map (fun target ↦ ⟨n.id, target, .owns⟩) else []

/-- The edges of a graph, node by node; whether containment counts is for the caller to say. -/
def edges (g : UseGraph) (withOwns : Bool) : List Edge :=
  g.nodes.toList.flatMap fun n ↦ edgesFrom n withOwns

/-! ### Labels -/

/-- The label of a node: a root has no name, so its id tells it apart. -/
def label (n : Node) : String :=
  if n.id = 0 then "(root)"
  else if n.kind = .root then "(subgraph " ++ toString n.id ++ ")"
  else n.kind.text ++ " " ++ n.name ++ " (" ++ toString n.id ++ ")"

/-- One character of a label between quotes. -/
def labelChar (c : Char) : List Char :=
  if c = '"' then ['\\', '"']
  else if c = '\\' then ['\\', '\\']
  else if c = '\n' then ['\\', 'l']
  else [c]

/-- A label between quotes. -/
def quotedLabel (s : String) : List Char :=
  '"' :: s.toList.flatMap labelChar ++ ['"']

/-- The attributes of a node or edge that is drawn with a label. -/
def labelled (s : String) : List Char :=
  " [ label = ".toList ++ quotedLabel s ++ " ]\n".toList

/-! ### Lines -/

/-- What stands before every node and edge. -/
def indent : List Char := "    ".toList

/-- The line of a node. -/
def nodeLine (n : Node) : List Char :=
  indent ++ (toString n.id).toList ++ labelled (label n)

/-- The line of an edge. -/
def edgeLine (e : Edge) : List Char :=
  indent ++ (toString e.source).toList ++ " -> ".toList ++ (toString e.target).toList
    ++ labelled e.kind.text

/-- The text of a graph in the DOT language. -/
def dot (g : UseGraph) (withOwns : Bool) : String :=
  String.ofList
    ("digraph \x7b\n".toList ++ g.nodes.toList.flatMap nodeLine
      ++ (g.edges withOwns).flatMap edgeLine ++ "\x7d\n".toList)

end UseGraph

end DeclExtract
