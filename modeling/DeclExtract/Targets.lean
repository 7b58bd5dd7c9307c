import DeclExtract.Error
import DeclExtract.Order.Ascending
import DeclExtract.Text.Separated

/-!
# Targets

The names that an extraction starts from: a finite set of names, not empty and without the empty
name. A list of targets is written with commas between the names, so a name that was read from such
a list has no comma in it.
-/

namespace DeclExtract

/-- A set of names, in ascending order. -/
structure Targets where
  names : List String
  /-- There is a target. -/
  names_ne_nil : names ≠ []
  /-- Every target has a name. -/
  ne_empty : ∀ name ∈ names, name ≠ ""
  /-- The names ascend, so each stands once. -/
  pairwise : names.Pairwise (· < ·)

namespace Targets

/-- The text between the commas of a list; without a comma, the whole text. -/
def pieces (text : String) : List String :=
  Text.parts ',' text

/-- The set of the given names. An empty name is refused before the lack of names is. -/
def ofNames (names : List String) : Except Error Targets :=
  if hempty : "" ∈ names then .error .emptyTargetName
  else if hnil : names = [] then .error .noTargets
  else
    .ok {
      names := ascending names
      names_ne_nil := by
        obtain ⟨name, rest, rfl⟩ := List.exists_cons_of_ne_nil hnil
        exact List.ne_nil_of_mem (mem_ascending.mpr (List.mem_cons_self (a := name)))
      ne_empty := fun name h e ↦ hempty (e ▸ mem_ascending.mp h)
      pairwise := pairwise_ascending names }

/-- The set of the names in a list with commas. -/
def parse (text : String) : Except Error Targets :=
  ofNames (pieces text)

/-- Whether a name is a target. -/
def contains (t : Targets) (name : String) : Bool :=
  t.names.contains name

/-- The number of targets. -/
def size (t : Targets) : Nat :=
  t.names.length

/-- The names with commas between them. -/
def text (t : Targets) : String :=
  ",".intercalate t.names

end Targets

end DeclExtract
