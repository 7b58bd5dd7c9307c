/-!
# Settings of a run

What a config file can set, and what holds where it is silent.
-/

namespace DeclExtract

/-- The file of the working directory that is read where no config file is named. -/
def defaultConfigFile : String := "excise.toml"

/-- The settings of a run. -/
structure Config where
  /-- Which log events are shown. -/
  logFilter : String := "warn"
  /-- Whether each target that names no declaration is reported. -/
  reportUnresolved : Bool := false
  /-- Whether a run fails where no target names a declaration. -/
  requireResolved : Bool := false
  /-- Whether a drawing of the graph shows containment. -/
  dotOwns : Bool := false
  deriving Repr, DecidableEq, Inhabited

end DeclExtract
