import DeclExtract.Codec.Declaration
import DeclExtract.Extraction
import DeclExtract.UseGraph.Statistics

/-!
# Reports and settings as JSON

How the results of a merge, of a selection and of counting are written, and how those that can be
read are read, the settings of a run among them.
-/

namespace DeclExtract

open Json

namespace MergeReport

/-- The report of a merge as a record. -/
def toJson (r : MergeReport) : Json :=
  record [("added", .natural r.added), ("deduplicated_by_path", .natural r.byPath),
    ("deduplicated_by_position", .natural r.byPosition), ("unified", .natural r.unified),
    ("root_edges", .natural r.rootEdges)]

/-- Reads the report of a merge. -/
def decode : Decoder MergeReport
  | 0, _ => none
  | _ + 1, j => do
    let r ← asRecord 5 j
    let added ← r.required 0 "added" asCount
    let byPath ← r.required 1 "deduplicated_by_path" asCount
    let byPosition ← r.required 2 "deduplicated_by_position" asCount
    let unified ← r.required 3 "unified" asCount
    let rootEdges ← r.required 4 "root_edges" asCount
    some { added, byPath, byPosition, unified, rootEdges }

end MergeReport

namespace Statistics

/-- The counts by kind as an object. -/
def kindsToJson (counts : List (NodeKind × Nat)) : Json :=
  record (counts.map fun (k, n) ↦ (k.text, .natural n))

/-- One count of an object of counts. -/
def decodeKindCount : Str × Json → Option (NodeKind × Nat)
  | (.text name, count) => do
    let k ← NodeKind.named? name
    let n ← asCount count
    some (k, n)
  | (.unpaired _, _) => none

/-- Reads counts by kind. A kind may be given several times, and the last count holds. -/
def decodeKinds : Decoder (List (NodeKind × Nat))
  | _ + 1, .object members => do
    let counts ← members.mapM decodeKindCount
    some (listKinds fun k ↦ (counts.reverse.find? fun c ↦ c.1 == k).map Prod.snd)
  | _, _ => none

/-- Statistics as a record. -/
def toJson (s : Statistics) : Json :=
  record [("total_nodes", .natural s.nodes), ("use_edges", .natural s.useEdges),
    ("owns_edges", .natural s.ownsEdges), ("exported", .natural s.exported),
    ("by_kind", kindsToJson s.byKind)]

/-- Reads statistics. -/
def decode : Decoder Statistics
  | 0, _ => none
  | budget + 1, j => do
    let r ← asRecord 5 j
    let nodes ← r.required 0 "total_nodes" asCount
    let useEdges ← r.required 1 "use_edges" asCount
    let ownsEdges ← r.required 2 "owns_edges" asCount
    let exported ← r.required 3 "exported" asCount
    let byKind ← r.required 4 "by_kind" (decodeKinds budget)
    some { nodes, useEdges, ownsEdges, exported, byKind }

end Statistics

namespace Config

/-- The settings of a run as a record. -/
def toJson (c : Config) : Json :=
  record [("log_filter", ofText c.logFilter),
    ("report_unresolved_targets", .bool c.reportUnresolved),
    ("require_resolved_targets", .bool c.requireResolved),
    ("dot_include_owns", .bool c.dotOwns)]

/-- Reads the settings of a run. -/
def decode : Decoder Config
  | 0, _ => none
  | _ + 1, j => do
    let standard : Config := {}
    let r ← asRecord 4 j
    let logFilter ← r.withDefault 0 "log_filter" standard.logFilter asText
    let reportUnresolved ←
      r.withDefault 1 "report_unresolved_targets" standard.reportUnresolved asBool
    let requireResolved ←
      r.withDefault 2 "require_resolved_targets" standard.requireResolved asBool
    let dotOwns ← r.withDefault 3 "dot_include_owns" standard.dotOwns asBool
    some { logFilter, reportUnresolved, requireResolved, dotOwns }

end Config

namespace Selection

/-- What a selection takes along, as a record. The positions are left out: the graph has them. -/
def toJson (s : Selection) : Json :=
  record [("seen", ofList .natural s.seen), ("external", ofList .natural s.external),
    ("resolved_targets", ofList ofText s.resolved),
    ("unresolved_targets", ofList ofText s.unresolved)]

end Selection

end DeclExtract
