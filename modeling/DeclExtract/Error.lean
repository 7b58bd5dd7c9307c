import DeclExtract.Text.Quoted

/-!
# What can go wrong

Every reason for which a batch, a list of targets, a selection or a config file is refused, and the
one function that puts it into words.
-/

namespace DeclExtract

/-- A reason to refuse the input. -/
inductive Error where
  /-- A declaration has neither a path nor a position with a column, and is no root. -/
  | missingIdentity (name : String) (localId : Nat)
  /-- A node claims an id that is not its place in the batch. -/
  | misplacedNode (index claimed : Nat)
  /-- An edge leads to an id that no node of the batch has. -/
  | danglingEdge (source target size : Nat)
  /-- No targets were given. -/
  | noTargets
  /-- One of the targets is the empty name. -/
  | emptyTargetName
  /-- No declaration is named by any target, and one was required. -/
  | noTargetMatched (targets : String)
  /-- A file is missing or a directory, or holds bytes that are no text. -/
  | unreadableFile
  /-- A config file does not say what a config file may say. -/
  | invalidConfig
  deriving Repr, DecidableEq

namespace Error

/-- The error in words. -/
def message : Error → String
  | .missingIdentity name localId =>
    "object " ++ Text.quoted name ++ " (local id " ++ toString localId
      ++ ") has no path but also no column information"
  | .misplacedNode index claimed =>
    "partial graph node at index " ++ toString index ++ " claims local id " ++ toString claimed
  | .danglingEdge source target size =>
    "edge " ++ toString source ++ " -> " ++ toString target
      ++ " points outside a partial graph of " ++ toString size ++ " nodes"
  | .noTargets => "missing targets"
  | .emptyTargetName => "empty string target"
  | .noTargetMatched targets => "no declaration matched any of the targets: " ++ targets
  | .unreadableFile => "I/O error"
  | .invalidConfig => "config error"

end Error

end DeclExtract
