import DeclExtract.Declaration.Node
import DeclExtract.Error
import DeclExtract.TypeExpr.Satisfaction

/-!
# Batches

A batch is what one pass over a package contributes: a list of nodes that refer to one another by
their places in the list. The node at place zero is the root of the batch.

A batch can be built up node by node, and it can be checked. A faulty batch is described by the list
of all its faults, in the order in which they are met: first the faults of ids and edges, node by
node, and then the nodes that could never be recognised again. Whoever refuses a batch reports the
first of them.
-/

namespace DeclExtract

/-- A list of nodes with their own numbering. -/
structure Batch where
  nodes : List Node
  deriving Repr, DecidableEq

namespace Batch

/-- The number of nodes. -/
def size (b : Batch) : Nat :=
  b.nodes.length

/-! ### Building a batch -/

/-- The batch without nodes. -/
def empty : Batch := ⟨[]⟩

/-- A batch of a root alone. -/
def ofRoot (root : Node) : Batch :=
  ⟨[{ root with id := 0 }]⟩

/-- The batch with one more node, whose id is the old size. -/
def add (b : Batch) (n : Node) : Batch :=
  ⟨b.nodes ++ [{ n with id := b.size }]⟩

/-- The batch with the definition of `source` mentioning `target` as well; nothing changes if there
is no node `source`. -/
def addUse (b : Batch) (source target : Nat) : Batch :=
  ⟨b.nodes.modify source fun n ↦ { n with uses := n.uses ++ [target] }⟩

/-- The batch with `owner` containing `member` as well; nothing changes if there is no node
`owner`. -/
def addOwns (b : Batch) (owner member : Nat) : Batch :=
  ⟨b.nodes.modify owner fun n ↦ { n with owns := n.owns ++ [member] }⟩

/-! ### Linking implementations -/

/-- The id of the first node that is known under an identity. -/
def find? (b : Batch) (identity : Identity) : Option Nat :=
  (b.nodes.find? fun n ↦ decide (identity ∈ n.identities)).map Node.id

/-- The nodes that declare the methods of the bindings, as far as the batch has them. -/
def providers (b : Batch) (bindings : List Binding) : List Nat :=
  bindings.filterMap fun binding ↦ binding.provided.identity.bind b.find?

/-- Records that `source` refers to a value of an interface type whose concrete type has the given
methods. If the type satisfies the interface, `source` uses every method that is bound to one of the
interface's; otherwise the batch stays as it is. The answer says which. -/
def link (b : Batch) (source : Nat) (concrete : MethodSet) (interface : Interface) :
    Batch × Bool :=
  match (Implementor.concrete concrete).bindings? interface with
  | none => (b, false)
  | some bindings => ((b.providers bindings).foldl (fun b target ↦ b.addUse source target) b, true)

/-! ### Faults -/

/-- The faults of one node: a wrong id, and edges that leave the batch. -/
def nodeFaults (size : Nat) (n : Node) (index : Nat) : List Error :=
  (if n.id = index then [] else [.misplacedNode index n.id])
    ++ ((n.uses ++ n.owns).filter (size ≤ ·)).map fun target ↦ .danglingEdge n.id target size

/-- The faults of ids and edges, node by node. -/
def numberingFaults (b : Batch) : List Error :=
  let size := b.size
  b.nodes.zipIdx.flatMap fun (n, index) ↦ nodeFaults size n index

/-- Whether a node could not be recognised in another batch, and need not be because it is the root
or carries an ordinal. -/
def isAnonymous (n : Node) : Bool :=
  n.id ≠ 0 && !n.hasIdentity && n.subgraph.isNone

/-- The nodes that could never be recognised again. -/
def identityFaults (b : Batch) : List Error :=
  (b.nodes.filter isAnonymous).map fun n ↦ .missingIdentity n.name n.id

/-- All faults of a batch, in the order in which they are reported. -/
def faults (b : Batch) : List Error :=
  b.numberingFaults ++ b.identityFaults

/-- Refuses a batch whose ids or edges are faulty. -/
def checkNumbering (b : Batch) : Except Error Unit :=
  match b.numberingFaults with
  | [] => .ok ()
  | fault :: _ => .error fault

/-- Refuses a batch with any fault. -/
def check (b : Batch) : Except Error Unit :=
  match b.faults with
  | [] => .ok ()
  | fault :: _ => .error fault

end Batch

end DeclExtract
