import DeclExtract.Event

/-!
# Log filters

Which events a run shows. A filter is a list of directives with commas between them: a level alone,
a source alone, or a source and a level with an equals sign between them. A directive concerns the
sources that start with its own; of several, the one with the longest source decides, and of two
with the same source the later one. Without any directive only errors are shown.
-/

namespace DeclExtract

/-- One directive of a log filter. -/
structure LogDirective where
  /-- The sources that it concerns start like this; all of them, if it is empty. -/
  source : String
  /-- The greatest verbosity that is shown. -/
  verbosity : Nat
  deriving Repr, DecidableEq

namespace LogFilter

/-- The source of all events of a run. -/
def ownSource : String := "excise"

/-- The verbosity that the name or number of a level stands for. -/
def verbosity? (text : String) : Option Nat :=
  let levels := [("off", 0), ("error", 1), ("warn", 2), ("info", 3), ("debug", 4), ("trace", 5),
    ("0", 0), ("1", 1), ("2", 2), ("3", 3), ("4", 4), ("5", 5)]
  (levels.find? fun l ↦ l.1 == text.toLower).map Prod.snd

/-- Whether a character may stand in the name of a source. -/
def isSourceChar (c : Char) : Bool :=
  c.isAlphanum || c = '_' || c = ':' || c = '-'

/-- Whether a text can be the name of a source. -/
def isSource (text : String) : Bool :=
  text ≠ "" && text.toList.all isSourceChar

/-- The directive that a text stands for, if it is one. A source alone shows everything. -/
def directive? (text : String) : Option LogDirective :=
  match verbosity? text with
  | some v => some ⟨"", v⟩
  | none =>
    match text.splitOn "=" with
    | [source] => if isSource source then some ⟨source, 5⟩ else none
    | [source, level] =>
      if isSource source then
        if level = "" then some ⟨source, 5⟩ else (verbosity? level).map fun v ↦ ⟨source, v⟩
      else none
    | _ => none

/-- The directives of a filter; what is no directive is passed over. -/
def parse (text : String) : List LogDirective :=
  (text.splitOn ",").filterMap directive?

/-- The directive that decides on events of a source. -/
def deciding? (directives : List LogDirective) (source : String) : Option LogDirective :=
  directives.foldl
    (fun best d ↦
      if d.source.toList.isPrefixOf source.toList then
        match best with
        | some b => if b.source.length ≤ d.source.length then some d else some b
        | none => some d
      else best)
    none

/-- Whether a filter shows an event. -/
def shows (directives : List LogDirective) (e : Event) : Bool :=
  if directives.isEmpty then e.level.verbosity ≤ Level.error.verbosity
  else
    match deciding? directives ownSource with
    | some d => e.level.verbosity ≤ d.verbosity
    | none => false

end LogFilter

end DeclExtract
