import DeclExtract.Config
import DeclExtract.Event
import DeclExtract.Selection.Walk

/-!
# Selections

What an extraction takes along. `seen` holds the declarations to be copied, `external` those that
the copied ones refer to across the visibility boundary, and every target is either resolved,
because it names a declaration, or unresolved. Ids and names are listed in ascending order.

A selection also knows the positions of what it copies, for whoever edits the source text.
-/

namespace DeclExtract

/-- The declarations that an extraction copies, and what it found out about the targets. -/
structure Selection where
  /-- The ids of the declarations to be copied. -/
  seen : List Nat := []
  /-- The ids of the declarations that are referred to and stay where they are. -/
  external : List Nat := []
  /-- The targets that name a declaration. -/
  resolved : List String := []
  /-- The targets that name none. -/
  unresolved : List String := []
  /-- The positions of the declarations to be copied. -/
  wanted : List Position := []
  deriving Repr, DecidableEq, Inhabited

namespace Selection

/-- The number of declarations to be copied. -/
def size (s : Selection) : Nat :=
  s.seen.length

/-- Whether the declaration with the given id is copied. -/
def contains (s : Selection) (id : Nat) : Bool :=
  s.seen.contains id

/-- Whether the declaration at the given position is copied. -/
def wants (s : Selection) (p : Position) : Bool :=
  s.wanted.contains p

end Selection

namespace UseGraph

/-- Whether a target names a declaration of the graph. -/
def resolves (g : UseGraph) (name : String) : Bool :=
  !(g.named name).isEmpty

/-- The declarations that are used by the given ones across the boundary, apart from those that were
visited all the same. -/
def externals (g : UseGraph) (t : Targets) (visited : NodeSet) (ids : List Nat) : List Nat :=
  let marked := ids.foldl
    (fun s id ↦ s.insertAll ((g.usesOf id).filter (g.isBoundary t))) (NodeSet.empty g.size)
  marked.toList.filter fun id ↦ !visited.contains id

/-- The selection for a set of targets. A target that names no declaration contributes nothing. -/
def select (g : UseGraph) (t : Targets) : Selection :=
  let visited := (Walk.ofTargets g t).visited
  let seen := visited.toList
  { seen
    external := g.externals t visited seen
    resolved := t.names.filter g.resolves
    unresolved := t.names.filter fun name ↦ !g.resolves name
    wanted := (seen.filterMap g.node?).map Node.position }

end UseGraph

/-! ### What a selection reports -/

namespace Selection

/-- The event that reports a selection. -/
def event (s : Selection) (t : Targets) : Event :=
  .selectionComplete t.size s.unresolved.length s.seen.length s.external.length

/-- The warnings about a selection that a config asks for: one for each unresolved target. -/
def warnings (s : Selection) (config : Config) : List Event :=
  if config.reportUnresolved then s.unresolved.map .unmatchedTarget else []

/-- Refuses a selection without any resolved target, if a config asks for that. -/
def checked (s : Selection) (t : Targets) (config : Config) : Except Error Selection :=
  if config.requireResolved && s.resolved.isEmpty then .error (.noTargetMatched t.text) else .ok s

end Selection

end DeclExtract
