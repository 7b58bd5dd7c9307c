import DeclExtract.Event
import DeclExtract.Merge.Forest
import DeclExtract.UseGraph.Basic

/-!
# Merging batches

A merger collects batches and recognises the declarations that they share. Every declaration has a
slot. A node of a batch is sighted against the slots that are there already (`Merger.recognise`): it
may be the root of an earlier batch, known by its ordinal; it may be known by its path, by its
position, or by both; or it may be new. A node that is known both by path and by position, under two
slots, shows that the two are one declaration, and their classes are joined.

The edges of a batch are added when all its nodes have a slot. They are written in slots, which may
later be absorbed by others, and are brought to representatives when the graph is taken.

A batch is checked as a whole before anything else, so a merger never holds a part of a batch.
-/

namespace DeclExtract

/-- The state of a merge. Slots, ordinals and the ids of the graph are natural numbers. They agree
with numbers of 32 bits as long as there are fewer than `2 ^ 32` slots, and so fewer than `2 ^ 32`
nodes and ordinals: below that bound no number is cut off. -/
structure Merger where
  /-- The declaration in each slot; an absorbed slot is left blank. -/
  slots : Array Node
  /-- Which slots stand for one declaration. -/
  forest : Forest
  /-- The slot under which each path was first seen. -/
  byPath : Std.HashMap ObjectPath Nat
  /-- The slot under which each position with a column was first seen. -/
  byPosition : Std.HashMap Position Nat
  /-- The slots of the roots without identity, by their ordinals. -/
  anonymousRoots : Array Nat

/-- How many nodes of a batch were recognised in which way. -/
structure MergeReport where
  /-- Nodes that had not been seen before. -/
  added : Nat := 0
  /-- Nodes that were recognised by their path. -/
  byPath : Nat := 0
  /-- Nodes that were recognised by their position alone. -/
  byPosition : Nat := 0
  /-- Pairs of declarations that turned out to be one. -/
  unified : Nat := 0
  /-- Roots of batches that the root of the graph now uses. -/
  rootEdges : Nat := 0
  deriving Repr, DecidableEq

/-- How a node was recognised. -/
inductive Recognition where
  /-- By the ordinal of an earlier root. -/
  | root (slot ordinal : Nat)
  /-- By its path and by its position. -/
  | both (byPath byPosition : Nat)
  /-- By its path. -/
  | path (slot : Nat)
  /-- By its position. -/
  | position (slot : Nat)
  /-- Not at all. -/
  | fresh
  deriving Repr, DecidableEq

namespace Merger

/-- The root of the graph: it carries the first ordinal. -/
def graphRoot : Node :=
  { Node.root with subgraph := some 0 }

/-- A merger that holds the root of the graph alone. -/
def empty : Merger where
  slots := #[graphRoot]
  forest := Forest.empty.grow
  byPath := ∅
  byPosition := ∅
  anonymousRoots := #[0]

/-- The number of declarations, the root of the graph included. -/
def size (m : Merger) : Nat :=
  m.forest.classes

/-- What is left in an absorbed slot. -/
def blank (slot : Nat) : Node :=
  { Node.root with id := slot }

/-- The node that a slot holds; a slot that is not there holds as little as an absorbed one. -/
def node (m : Merger) (slot : Nat) : Node :=
  m.slots[slot]?.getD (blank slot)

/-! ### Recognising a node -/

/-- The declaration known under a path. -/
def atPath? (m : Merger) (p : ObjectPath) : Option Nat :=
  m.byPath[p]?.map m.forest.find

/-- The declaration known under a position. -/
def atPosition? (m : Merger) (p : Position) : Option Nat :=
  m.byPosition[p]?.map m.forest.find

/-- The root known under an ordinal. -/
def atOrdinal? (m : Merger) (ordinal : Nat) : Option Nat :=
  m.anonymousRoots[ordinal]?.map m.forest.find

/-- How a node is recognised: by its ordinal before anything else, then by its identities. -/
def recognise (m : Merger) (n : Node) : Recognition :=
  match n.subgraph.bind fun o ↦ (m.atOrdinal? o).map fun slot ↦ (slot, o) with
  | some (slot, ordinal) => .root slot ordinal
  | none =>
    match n.stablePath.bind m.atPath?, n.stablePosition.bind m.atPosition? with
    | some a, some b => .both a b
    | some a, none => .path a
    | none, some b => .position b
    | none, none => .fresh

/-! ### Changing the slots -/

/-- A declaration with what it lacks filled in from another sighting of it. -/
def complete (known sighted : Node) : Node :=
  { known with
    path := if known.stablePath.isSome then known.path else sighted.stablePath
    position := if known.position.hasColumn then known.position else
      if sighted.position.hasColumn then sighted.position else known.position
    namedType := known.namedType.or sighted.namedType }

/-- Lets a slot be found under every identity of a node that is not taken yet, and fills in what the
slot lacks. -/
def register (m : Merger) (n : Node) (slot : Nat) : Merger :=
  { m with
    byPath := match n.stablePath with
      | some p => m.byPath.insertIfNew p slot
      | none => m.byPath
    byPosition := match n.stablePosition with
      | some p => m.byPosition.insertIfNew p slot
      | none => m.byPosition
    slots := m.slots.modify slot fun known ↦ complete known n }

/-- The declaration that takes over the edges of another one, and whatever it lacks itself. -/
def inherit (survivor absorbed : Node) : Node :=
  { survivor with
    uses := survivor.uses ++ absorbed.uses
    owns := survivor.owns ++ absorbed.owns
    path := if survivor.stablePath.isSome then survivor.path else absorbed.stablePath
    position := if survivor.position.hasColumn then survivor.position else absorbed.position
    namedType := survivor.namedType.or absorbed.namedType }

/-- Joins the classes of two representatives. The smaller slot stands for both from now on. -/
def unify (m : Merger) (a b : Nat) : Merger :=
  let keep := min a b
  let gone := max a b
  let absorbed := m.node gone
  { m with
    forest := m.forest.absorb keep gone
    slots := (m.slots.setIfInBounds gone (blank gone)).modify keep fun n ↦ inherit n absorbed }

/-- A new declaration as its slot holds it: without edges for the time being, and with an ordinal if
it has no identity. -/
def settle (m : Merger) (n : Node) (slot : Nat) : Node :=
  { n with
    id := slot
    path := n.stablePath
    uses := []
    owns := []
    subgraph := if n.hasIdentity then n.subgraph else some m.anonymousRoots.size }

/-- Gives a new declaration a slot, under which it cannot be found yet. The root of the graph uses
the root of every batch. -/
def extend (m : Merger) (n : Node) : Merger :=
  let slot := m.slots.size
  let slots := m.slots.push (m.settle n slot)
  { m with
    slots := if n.id = 0 then slots.modify 0 fun r ↦ { r with uses := r.uses ++ [slot] } else slots
    forest := m.forest.grow
    anonymousRoots := if n.hasIdentity then m.anonymousRoots else m.anonymousRoots.push slot }

/-- Gives a new declaration a slot, and lets it be found there. -/
def allocate (m : Merger) (n : Node) : Merger :=
  let slot := m.slots.size
  (m.extend n).register n slot

/-- The merger after a node has been recognised, and the slot of the node. -/
def settleAs (m : Merger) (n : Node) : Recognition → Merger × Nat
  | .root slot _ => (m, slot)
  | .both a b => if a = b then (m, a) else (m.unify a b, min a b)
  | .path slot => (m.register n slot, slot)
  | .position slot => (m.register n slot, slot)
  | .fresh =>
    let slot := m.slots.size
    (m.allocate n, slot)

/-- Adds edges, given in slots, to the declaration of a slot. -/
def addEdges (m : Merger) (slot : Nat) (uses owns : List Nat) : Merger :=
  { m with
    slots := m.slots.modify (m.forest.find slot) fun n ↦
      { n with uses := n.uses ++ uses, owns := n.owns ++ owns } }

end Merger

/-! ### What a recognition reports -/

namespace Recognition

/-- The event that reports how a node was recognised and which slot it got. -/
def event (n : Node) (slot : Nat) : Recognition → Event
  | .root s ordinal => .knownRoot n.id s ordinal
  | .both a b => .matchedBoth n.id a b
  | .path s => .matchedPath n.id s
  | .position s => .matchedPosition n.id s
  | .fresh => .newNode n.id slot n.name

/-- The report with one more node counted. -/
def count (r : MergeReport) (n : Node) : Recognition → MergeReport
  | .root .. => r
  | .both a b =>
    { r with byPath := r.byPath + 1, unified := if a = b then r.unified else r.unified + 1 }
  | .path _ => { r with byPath := r.byPath + 1 }
  | .position _ => { r with byPosition := r.byPosition + 1 }
  | .fresh =>
    { r with
      added := r.added + 1
      rootEdges := if n.id = 0 then r.rootEdges + 1 else r.rootEdges }

end Recognition

/-! ### Merging a batch -/

/-- A merger in the middle of a batch. -/
structure Merging where
  merger : Merger
  report : MergeReport
  /-- The slot of each node so far, by its local id. -/
  placed : Array Nat
  /-- What happened to each node so far. -/
  events : Array Event

namespace Merging

/-- The start of a batch. -/
def start (m : Merger) : Merging :=
  ⟨m, {}, #[], #[]⟩

/-- Recognises one more node and gives it its slot. -/
def sight (s : Merging) (n : Node) : Merging :=
  let ⟨merger, report, placed, events⟩ := s
  let recognition := merger.recognise n
  let (merger, slot) := merger.settleAs n recognition
  { merger
    report := recognition.count report n
    placed := placed.push slot
    events := events.push (recognition.event n slot) }

/-- The slot of a local id. -/
def slotOf (s : Merging) (localId : Nat) : Nat :=
  s.placed[localId]?.getD 0

/-- Adds the edges of a node to the declaration that it was recognised as. -/
def connect (s : Merging) (m : Merger) (n : Node) : Merger :=
  m.addEdges (s.slotOf n.id) (n.uses.map s.slotOf) (n.owns.map s.slotOf)

end Merging

/-- The outcome of merging a batch. -/
structure Merged where
  merger : Merger
  report : MergeReport
  /-- The slot of each node of the batch. -/
  placed : Array Nat
  /-- One event per node, and one for the batch. -/
  events : List Event

namespace Merger

/-- Merges a batch that has no faults. -/
def mergeSound (m : Merger) (b : Batch) : Merged :=
  let s := b.nodes.foldl Merging.sight (Merging.start m)
  { merger := b.nodes.foldl s.connect s.merger
    report := s.report
    placed := s.placed
    events := s.events.toList ++
      [.batchMerged b.size s.report.added s.report.byPath s.report.byPosition s.report.unified] }

/-- Merges a batch, or refuses it with the first of its faults. -/
def merge (m : Merger) (b : Batch) : Except Error Merged :=
  match b.check with
  | .ok () => .ok (m.mergeSound b)
  | .error e => .error e

/-! ### Taking the graph -/

/-- The graph of everything merged so far. Declarations are numbered in the order of their slots,
and every slot in an edge or an index becomes the number of its declaration. -/
def graph (m : Merger) : UseGraph :=
  let ranks := m.forest.ranks
  let idOf := fun slot ↦ ranks[slot]?.getD 0
  let declaration := fun slot ↦
    let n := m.node slot
    { n with id := idOf slot, uses := n.uses.map idOf, owns := n.owns.map idOf }
  { nodes := (m.forest.representatives.map declaration).toArray
    byPath := m.byPath.map fun _ slot ↦ idOf slot
    byPosition := m.byPosition.map fun _ slot ↦ idOf slot }

end Merger

end DeclExtract
