import DeclExtract.Config
import DeclExtract.File.State
import DeclExtract.Toml.Document

/-!
# Config files

A config file is a TOML document whose first entries are the settings. A setting that is missing has
its default; one that is given twice, or as something else than it should be, makes the file
invalid. Whatever else the document says is no concern of ours, as long as it is a document.

A config file that somebody names has to be there and valid. The one in the working directory may be
missing, and it is put aside where it is not valid.
-/

namespace DeclExtract

/-! ### Settings of a document -/

namespace Toml.Document

/-- The value that a document gives for a setting, if it gives one; `none` if it gives several, or
makes a table of the setting. -/
def setting? (d : Document) (name : String) : Option (Option Value) :=
  if d.sections.any fun s ↦ s.header.head? == some name then none
  else
    match d.entries.filter fun e ↦ e.1 == name with
    | [] => some none
    | [(_, v)] => some (some v)
    | _ => none

/-- A setting that is text. -/
def textSetting? (d : Document) (name : String) (default : String) : Option String :=
  match d.setting? name with
  | some none => some default
  | some (some (.string s)) => some s
  | _ => none

/-- A setting that is a truth value. -/
def flagSetting? (d : Document) (name : String) (default : Bool) : Option Bool :=
  match d.setting? name with
  | some none => some default
  | some (some (.boolean b)) => some b
  | _ => none

end Toml.Document

namespace Config

/-- The settings of a document. -/
def ofDocument? (d : Toml.Document) : Option Config := do
  let standard : Config := {}
  let logFilter ← d.textSetting? "log_filter" standard.logFilter
  let reportUnresolved ← d.flagSetting? "report_unresolved_targets" standard.reportUnresolved
  let requireResolved ← d.flagSetting? "require_resolved_targets" standard.requireResolved
  let dotOwns ← d.flagSetting? "dot_include_owns" standard.dotOwns
  some { logFilter, reportUnresolved, requireResolved, dotOwns }

/-- The settings in the text of a config file. -/
def parse (text : String) : Except Error Config :=
  match (Toml.parse text).bind ofDocument? with
  | some c => .ok c
  | none => .error .invalidConfig

/-- The settings of a config file that has to be there. -/
def load (file : FileState) : Except Error Config :=
  file.text.bind parse

/-- The settings of a config file that may be missing or put aside; then the defaults hold. If it
was put aside, the reason comes along. -/
def loadOrDefault (file : FileState) : Config × Option Error :=
  match file with
  | .absent => ({}, none)
  | file =>
    match load file with
    | .ok c => (c, none)
    | .error e => ({}, some e)

end Config

end DeclExtract
