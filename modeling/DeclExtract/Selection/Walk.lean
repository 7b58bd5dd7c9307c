import DeclExtract.Targets
import DeclExtract.UseGraph.Basic
import DeclExtract.UseGraph.NodeSet

/-!
# The walk from the targets

Which declarations have to be copied along with the targets. The walk starts at every declaration
that a target names, and from each declaration it goes on to the methods that travel with it and to
the declarations that its definition uses. It stops at the visibility boundary: a used declaration
that is exported and not itself a target stays where it is, and so does a root.

The walk keeps the ids that are still to be visited on a stack. The stack grows while it is emptied,
and one id may be on it several times, so the length of the stack is no measure of progress. But
only a first visit puts anything on the stack, and each id has only one
(`NodeSet.missing_insert_lt`).
-/

namespace DeclExtract

namespace UseGraph

/-! ### The boundary -/

/-- Whether a declaration that is used stays behind the visibility boundary. -/
def isBoundary (g : UseGraph) (t : Targets) (id : Nat) : Bool :=
  match g.node? id with
  | some n => n.kind ≠ .root && n.exported && !t.contains n.name
  | none => false

/-- Whether a declaration that is used has to be copied. -/
def isInternal (g : UseGraph) (t : Targets) (id : Nat) : Bool :=
  match g.node? id with
  | some n => n.kind ≠ .root && !(n.exported && !t.contains n.name)
  | none => false

/-- The ids that the definition of a node uses. -/
def usesOf (g : UseGraph) (id : Nat) : List Nat :=
  match g.node? id with
  | some n => n.uses
  | none => []

/-- Where the walk goes from a node: first to its methods, then to the internal declarations that it
uses. -/
def successors (g : UseGraph) (t : Targets) (id : Nat) : List Nat :=
  g.methods id ++ (g.usesOf id).filter (g.isInternal t)

/-- Where the walk starts: every declaration with the name of a target, in ascending order. -/
def seeds (g : UseGraph) (t : Targets) : List Nat :=
  ascending (t.names.flatMap g.named)

end UseGraph

/-! ### The walk -/

/-- What a walk has found. -/
structure Walk where
  /-- The ids that were visited. -/
  visited : NodeSet
  /-- The visited ids in the order of their first visits. -/
  trail : Array Nat
  /-- How many ids were taken from the stack. -/
  pops : Nat

namespace Walk

/-- The start of a walk in a graph. -/
def start (g : UseGraph) : Walk :=
  ⟨NodeSet.empty g.size, #[], 0⟩

/-- Whether an id is to be visited now: it is one of the graph's and has not been visited. -/
def isNew (w : Walk) (id : Nat) : Bool :=
  w.visited.inBounds id && !w.visited.contains id

/-- The walk after an id was taken from the stack and passed over. -/
def pass (w : Walk) : Walk :=
  { w with pops := w.pops + 1 }

/-- The walk after an id was taken from the stack and visited. -/
def visit (w : Walk) (id : Nat) : Walk :=
  { visited := w.visited.insert id, trail := w.trail.push id, pops := w.pops + 1 }

/-- The walk until the stack is empty. -/
def run (g : UseGraph) (t : Targets) (w : Walk) : List Nat → Walk
  | [] => w
  | id :: stack =>
    if w.isNew id then
      let w' := w.visit id
      run g t w' ((g.successors t id).filter (fun next ↦ !w'.visited.contains next) ++ stack)
    else run g t w.pass stack
termination_by stack => (w.visited.missing, stack.length)
decreasing_by
  · have hnew : w.visited.inBounds id = true ∧ w.visited.contains id = false := by
      simpa [isNew] using ‹w.isNew id = true›
    exact Prod.Lex.left _ _ (NodeSet.missing_insert_lt hnew.1 hnew.2)
  · exact Prod.Lex.right _ (Nat.lt_succ_self _)

/-- The walk from the targets. -/
def ofTargets (g : UseGraph) (t : Targets) : Walk :=
  run g t (start g) (g.seeds t)

end Walk

end DeclExtract
