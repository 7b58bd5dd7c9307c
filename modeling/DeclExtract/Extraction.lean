import DeclExtract.Merge.Merger
import DeclExtract.Selection.Basic

/-!
# Extraction

The whole way from batches to a selection: the batches are merged in the order in which they come,
and the selection is made in the graph of all of them. A run ends with the first refusal. Whatever
the outcome, the events up to that point are reported.
-/

namespace DeclExtract

/-- The outcome of a step, with the events on the way to it. -/
structure Reported (α : Type) where
  events : List Event
  result : Except Error α

namespace Reported

/-- Goes on with the result of a step, if it has one. -/
def andThen {α β : Type} (r : Reported α) (next : α → Reported β) : Reported β :=
  match r.result with
  | .error e => ⟨r.events, .error e⟩
  | .ok a =>
    let s := next a
    ⟨r.events ++ s.events, s.result⟩

end Reported

namespace Merger

/-- Merges batches one after the other. -/
def mergeAll (m : Merger) : List Batch → Reported Merger
  | [] => ⟨[], .ok m⟩
  | b :: bs =>
    match m.merge b with
    | .error e => ⟨[], .error e⟩
    | .ok merged =>
      let rest := merged.merger.mergeAll bs
      ⟨merged.events ++ rest.events, rest.result⟩

end Merger

namespace UseGraph

/-- The graph of the root alone. -/
def empty : UseGraph :=
  Merger.empty.graph

/-- The graph of batches, with the events of their merges. -/
def ofBatches (bs : List Batch) : Reported UseGraph :=
  let merged := Merger.empty.mergeAll bs
  ⟨merged.events, merged.result.map Merger.graph⟩

/-- The selection for a set of targets, with the events and refusals that a config asks for. -/
def selectWith (g : UseGraph) (t : Targets) (config : Config) : Reported Selection :=
  let s := g.select t
  ⟨s.event t :: s.warnings config, s.checked t config⟩

end UseGraph

/-- The graph of batches and the selection for a set of targets in it. -/
def extract (bs : List Batch) (t : Targets) (config : Config) : Reported (UseGraph × Selection) :=
  (UseGraph.ofBatches bs).andThen fun g ↦
    let selected := g.selectWith t config
    ⟨selected.events, selected.result.map fun s ↦ (g, s)⟩

end DeclExtract
