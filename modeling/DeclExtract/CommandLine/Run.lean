import DeclExtract.Codec.Report
import DeclExtract.CommandLine.Arguments
import DeclExtract.Config.File
import DeclExtract.Json.Parser
import DeclExtract.Json.Printer
import DeclExtract.LogFilter
import DeclExtract.UseGraph.Dot

/-!
# Runs of the program

What a command line prints and how it ends, as a function of the files that it finds. A run goes
through its stages in a fixed order: the config, the targets, the graph files in the order in which
they are named, the merge, and the selection. The first stage that fails decides how the run ends,
and a run that fails prints no result.
-/

namespace DeclExtract

/-- Why a run fails. -/
inductive Failure where
  /-- The arguments ask for nothing. -/
  | usage
  /-- The config file that was named cannot be loaded. -/
  | loading (file : String)
  /-- A graph file cannot be read. -/
  | reading (file : String)
  /-- A graph file holds no batch. -/
  | parsing (file : String)
  /-- The input is refused. -/
  | refused (e : Error)
  deriving Repr, DecidableEq

namespace Failure

/-- The exit status of a run that fails: two for a wrong invocation, one for anything else. -/
def status : Failure → UInt32
  | .usage => 2
  | .refused .noTargets | .refused .emptyTargetName => 2
  | _ => 1

/-- The failure in words; a wrong use of the options is explained elsewhere. -/
def message? : Failure → Option String
  | .usage => none
  | .loading file => some ("loading " ++ file)
  | .reading file => some ("reading " ++ file)
  | .parsing file => some ("parsing " ++ file)
  | .refused e => some e.message

end Failure

/-- What a run prints and shows. -/
structure RunResult where
  /-- The result on standard output, or why there is none. -/
  result : Except Failure String
  /-- The warnings that the log filter shows. -/
  warnings : List Event

/-- How a run ends, as seen from outside. -/
structure Exit where
  /-- The exit status. -/
  status : UInt32
  /-- What is written to standard output. -/
  output : String
  /-- Why the run failed, in words, unless the options were used wrongly. -/
  reason : Option String
  deriving Repr, DecidableEq

/-- A run with a result writes it and ends with status zero. A run that fails writes none. -/
def RunResult.exit (r : RunResult) : Exit :=
  match r.result with
  | .ok text => ⟨0, text, none⟩
  | .error failure => ⟨failure.status, "", failure.message?⟩

namespace CommandLine

/-! ### Reading graph files -/

/-- The batch that a JSON text denotes. -/
def batchOfText? (text : String) : Option Batch :=
  (Json.parse text).bind (Batch.decode Json.depthLimit)

/-- The batch of a graph file. -/
def readBatch (read : String → FileState) (file : String) : Except Failure Batch :=
  match (read file).text with
  | .error _ => .error (.reading file)
  | .ok text =>
    match batchOfText? text with
    | some b => .ok b
    | none => .error (.parsing file)

/-- The batches of graph files, in the order of the files. -/
def readBatches (read : String → FileState) : List String → Except Failure (List Batch)
  | [] => .ok []
  | file :: files => do
    let b ← readBatch read file
    let bs ← readBatches read files
    .ok (b :: bs)

/-! ### Printing selections -/

/-- The line of a declaration that is copied. -/
def wantedLine (n : Node) : String :=
  "  " ++ n.kind.text ++ " " ++ n.name ++ " - " ++ n.position.text ++ "\n"

/-- The line of a declaration that stays where it is: its path, if it has one, says where. -/
def externalLine (n : Node) : String :=
  match n.stablePath with
  | some p => "  " ++ n.kind.text ++ " " ++ n.name ++ " - " ++ p.text ++ "\n"
  | none => "  " ++ n.kind.text ++ " " ++ n.name ++ "\n"

/-- The lines of the nodes with the given ids. -/
def lines (g : UseGraph) (line : Node → String) (ids : List Nat) : String :=
  String.join ((ids.filterMap g.node?).map line)

/-- A selection as text: what is copied, and then, if there is any, what is referred to. -/
def selectionText (g : UseGraph) (s : Selection) : String :=
  "Wanted (" ++ toString s.size ++ "):\n" ++ lines g wantedLine s.seen
    ++ if s.external.isEmpty then ""
      else "\nExternal (" ++ toString s.external.length ++ "):\n" ++ lines g externalLine s.external

/-- A selection as JSON. -/
def selectionJson (s : Selection) : String :=
  s.toJson.indented ++ "\n"

/-! ### Commands -/

/-- The result of merging the batches of graph files. -/
def loadGraph (read : String → FileState) (files : List String) : Except Failure UseGraph := do
  let batches ← readBatches read files
  (UseGraph.ofBatches batches).result.mapError .refused

/-- Selects declarations. The targets are checked before any graph file is read. -/
def runSelect (read : String → FileState) (config : Config) (files targets : List String)
    (json : Bool) : RunResult :=
  match Targets.ofNames (targets.flatMap Targets.pieces) with
  | .error e => ⟨.error (.refused e), []⟩
  | .ok targets =>
    match readBatches read files with
    | .error e => ⟨.error e, []⟩
    | .ok batches =>
      let extracted := extract batches targets config
      let print := fun (g, s) ↦ if json then selectionJson s else selectionText g s
      ⟨(extracted.result.map print).mapError .refused,
        extracted.events.filter fun e ↦ e.level == .warn⟩

/-- Carries out a command. -/
def runCommand (read : String → FileState) (config : Config) : Command → RunResult
  | .select files targets json => runSelect read config files targets json
  | .dot files owns =>
    ⟨(loadGraph read files).map fun g ↦ g.dot (owns || config.dotOwns), []⟩
  | .stats files => ⟨(loadGraph read files).map fun g ↦ g.statistics.text ++ "\n", []⟩

/-! ### Whole runs -/

/-- The settings of a run, and the warnings about them. A config file that is named has to load; the
one of the working directory is put aside where it does not. -/
def settings (read : String → FileState) : Option String → Except Failure (Config × List Event)
  | some file => ((Config.load (read file)).map fun c ↦ (c, [])).mapError fun _ ↦ .loading file
  | none =>
    let (config, fault) := Config.loadOrDefault (read defaultConfigFile)
    .ok (config, if fault.isSome then [.configIgnored defaultConfigFile] else [])

/-- What a command line does with the files it finds. -/
def run (args : List String) (read : String → FileState) : RunResult :=
  match Invocation.parse args with
  | none => ⟨.error .usage, []⟩
  | some invocation =>
    match settings read invocation.config with
    | .error e => ⟨.error e, []⟩
    | .ok (config, notes) =>
      let ran := runCommand read config invocation.command
      ⟨ran.result,
        (notes ++ ran.warnings).filter (LogFilter.shows (LogFilter.parse config.logFilter))⟩

/-- The files that a run may read. -/
def filesRead (args : List String) : List String :=
  match Invocation.parse args with
  | none => []
  | some invocation => invocation.config.getD defaultConfigFile :: invocation.command.graphs

end CommandLine

end DeclExtract
