/-!
# Command lines

What the arguments of a command line ask for. Options come in a short and a long form. The value of
an option is attached to it or is the next argument; an argument that looks like an option itself is
no value. An option of the whole program stands before the command, the others behind it, and
nothing but options stands behind a command.

Arguments that do not follow these rules ask for nothing (`Invocation.parse` is `none`).
-/

namespace DeclExtract

/-- What to do. -/
inductive Command where
  /-- Select declarations, and print the selection as text or as JSON. -/
  | select (graphs targets : List String) (json : Bool)
  /-- Draw the graph, perhaps with containment. -/
  | dot (graphs : List String) (owns : Bool)
  /-- Count nodes and edges. -/
  | stats (graphs : List String)
  deriving Repr, DecidableEq

namespace Command

/-- The files whose batches a command merges, in their order. -/
def graphs : Command → List String
  | .select graphs _ _ | .dot graphs _ | .stats graphs => graphs

end Command

/-- What a command line asks for. -/
structure Invocation where
  /-- The config file, if one is named. -/
  config : Option String
  command : Command
  deriving Repr, DecidableEq

namespace CommandLine

/-! ### Options -/

/-- An option. -/
inductive Opt where
  | config
  | graph
  | target
  | json
  | owns
  deriving Repr, DecidableEq

namespace Opt

/-- Whether an option has a value. -/
def hasValue : Opt → Bool
  | .config | .graph | .target => true
  | .json | .owns => false

/-- Whether the value of an option may be empty; the name of a file may not. -/
def mayBeEmpty : Opt → Bool
  | .target => true
  | _ => false

/-- The short form of an option, if it has one. -/
def short? : Opt → Option Char
  | .config => some 'c'
  | .graph => some 'g'
  | .target => some 'y'
  | .json | .owns => none

/-- The long form of an option. -/
def long : Opt → String
  | .config => "config"
  | .graph => "graph"
  | .target => "target"
  | .json => "json"
  | .owns => "owns"

end Opt

/-- An option with its value; a flag has an empty value. -/
abbrev Given := Opt × String

/-- Whether an argument looks like an option. A single hyphen does not. -/
def looksLikeOption (arg : String) : Bool :=
  match arg.toList with
  | '-' :: _ :: _ => true
  | _ => false

/-- The text before the first equals sign and, if there is one, the text after it. -/
def splitEquals (cs : List Char) : String × Option String :=
  let name := cs.takeWhile (· ≠ '=')
  match cs.drop name.length with
  | _ :: value => (String.ofList name, some (String.ofList value))
  | [] => (String.ofList name, none)

/-- An option with a value, unless the value is not good for it. -/
def withValue (o : Opt) (value : String) : Option Given :=
  if value = "" && !o.mayBeEmpty then none else some (o, value)

/-- What one argument that looks like an option says: the option, and its value if it is
attached. -/
def readOption (allowed : List Opt) (arg : List Char) : Option (Opt × Option String) :=
  match arg with
  | '-' :: '-' :: cs =>
    let (name, value) := splitEquals cs
    (allowed.find? fun o ↦ o.long == name).map fun o ↦ (o, value)
  | '-' :: c :: cs =>
    let value := match cs with
      | [] => none
      | '=' :: cs => some (String.ofList cs)
      | cs => some (String.ofList cs)
    (allowed.find? fun o ↦ o.short? == some c).map fun o ↦ (o, value)
  | _ => none

/-- The options at the start of the arguments, and the arguments after them. -/
def readOptions (allowed : List Opt) : List String → Option (List Given × List String)
  | [] => some ([], [])
  | arg :: args =>
    if looksLikeOption arg && arg ≠ "--" then
      match readOption allowed arg.toList with
      | none => none
      | some (o, attached) =>
        if o.hasValue then
          match attached, args with
          | some value, args => do
            let given ← withValue o value
            let (more, rest) ← readOptions allowed args
            some (given :: more, rest)
          | none, [] => none
          | none, value :: args =>
            if looksLikeOption value then none
            else do
              let given ← withValue o value
              let (more, rest) ← readOptions allowed args
              some (given :: more, rest)
        else if attached.isSome then none
        else do
          let (more, rest) ← readOptions allowed args
          some ((o, "") :: more, rest)
    else some ([], arg :: args)
termination_by args => args.length

/-- The values that were given for an option, in their order. -/
def valuesOf (given : List Given) (o : Opt) : List String :=
  (given.filter fun g ↦ g.1 == o).map Prod.snd

/-- One or more values of an option. -/
def someValues (given : List Given) (o : Opt) : Option (List String) :=
  match valuesOf given o with
  | [] => none
  | values => some values

/-- The value of an option that may be given once. -/
def atMostOne (given : List Given) (o : Opt) : Option (Option String) :=
  match valuesOf given o with
  | [] => some none
  | [value] => some (some value)
  | _ => none

/-! ### Commands -/

/-- The options behind a command: nothing follows them, except perhaps the mark that ends
options. -/
def commandOptions (allowed : List Opt) (args : List String) : Option (List Given) := do
  let (given, rest) ← readOptions allowed args
  if rest = [] || rest = ["--"] then some given else none

/-- A command with the arguments behind it. -/
def readCommand (name : String) (args : List String) : Option Command :=
  match name with
  | "select" => do
    let given ← commandOptions [.graph, .target, .json] args
    let graphs ← someValues given .graph
    let targets ← someValues given .target
    let json ← atMostOne given .json
    some (.select graphs targets json.isSome)
  | "dot" => do
    let given ← commandOptions [.graph, .owns] args
    let graphs ← someValues given .graph
    let owns ← atMostOne given .owns
    some (.dot graphs owns.isSome)
  | "stats" => do
    let given ← commandOptions [.graph] args
    let graphs ← someValues given .graph
    some (.stats graphs)
  | _ => none

end CommandLine

namespace Invocation

open CommandLine

/-- What the arguments of a command line ask for. -/
def parse (args : List String) : Option Invocation := do
  let (given, rest) ← readOptions [.config] args
  let config ← atMostOne given .config
  match rest with
  | [] => none
  | name :: args => (readCommand name args).map fun command ↦ ⟨config, command⟩

end Invocation

end DeclExtract
