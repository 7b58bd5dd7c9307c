/-!
# Log events

What a run reports besides its result. An event is a value; which events are shown, and how, is left
to whoever receives them. Slots are the provisional numbers of a running merge, not ids of the
finished graph.
-/

namespace DeclExtract

/-- How important an event is. -/
inductive Level where
  | error
  | warn
  | info
  | debug
  | trace
  deriving Repr, DecidableEq

namespace Level

/-- The name of a level. -/
def text : Level → String
  | .error => "ERROR"
  | .warn => "WARN"
  | .info => "INFO"
  | .debug => "DEBUG"
  | .trace => "TRACE"

/-- How much is shown where this is the last level shown. -/
def verbosity : Level → Nat
  | .error => 1
  | .warn => 2
  | .info => 3
  | .debug => 4
  | .trace => 5

end Level

/-- Something that happened during a run. -/
inductive Event where
  /-- A node was recognised by its ordinal. -/
  | knownRoot (localId slot ordinal : Nat)
  /-- A node was recognised both by its path and by its position. -/
  | matchedBoth (localId byPath byPosition : Nat)
  /-- A node was recognised by its path. -/
  | matchedPath (localId slot : Nat)
  /-- A node was recognised by its position. -/
  | matchedPosition (localId slot : Nat)
  /-- A node had not been seen before. -/
  | newNode (localId slot : Nat) (name : String)
  /-- A batch was merged. -/
  | batchMerged (nodes added byPath byPosition unified : Nat)
  /-- A selection was made. -/
  | selectionComplete (targets unresolved seen external : Nat)
  /-- A target names no declaration. -/
  | unmatchedTarget (name : String)
  /-- The config file of the working directory was put aside. -/
  | configIgnored (file : String)
  deriving Repr, DecidableEq

namespace Event

/-- The level of an event. -/
def level : Event → Level
  | .knownRoot .. | .matchedBoth .. | .matchedPath .. | .matchedPosition .. | .newNode .. => .trace
  | .batchMerged .. | .selectionComplete .. => .debug
  | .unmatchedTarget _ | .configIgnored _ => .warn

/-- What happened, without the particulars. -/
def message : Event → String
  | .knownRoot .. => "known subgraph root"
  | .matchedBoth .. => "deduplicating on path and position"
  | .matchedPath .. => "deduplicating on path"
  | .matchedPosition .. => "deduplicating on position"
  | .newNode .. => "new node"
  | .batchMerged .. => "merged partial graph"
  | .selectionComplete .. => "selection complete"
  | .unmatchedTarget _ => "target matched no declaration"
  | .configIgnored _ => "invalid config, using defaults"

/-- The particulars, each with its name. -/
def fields : Event → List (String × String)
  | .knownRoot localId slot ordinal =>
    [("local", toString localId), ("canonical", toString slot), ("ordinal", toString ordinal)]
  | .matchedBoth localId byPath byPosition =>
    [("local", toString localId), ("path", toString byPath), ("position", toString byPosition)]
  | .matchedPath localId slot | .matchedPosition localId slot =>
    [("local", toString localId), ("canonical", toString slot)]
  | .newNode localId slot name =>
    [("local", toString localId), ("canonical", toString slot), ("name", name)]
  | .batchMerged nodes added byPath byPosition unified =>
    [("nodes", toString nodes), ("added", toString added), ("by_path", toString byPath),
      ("by_position", toString byPosition), ("unified", toString unified)]
  | .selectionComplete targets unresolved seen external =>
    [("targets", toString targets), ("unresolved", toString unresolved), ("seen", toString seen),
      ("external", toString external)]
  | .unmatchedTarget name => [("target_name", name)]
  | .configIgnored file => [("path", file)]

end Event

end DeclExtract
