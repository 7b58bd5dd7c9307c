import DeclExtract.CommandLine.Run

/-!
# The program

Reads the files that a command line names, runs it, and prints the outcome: the result on standard
output, warnings and the reason of a failure on standard error.
-/

open DeclExtract

/-- What is found under a name in the file system. -/
def readState (file : String) : IO FileState := do
  try
    let bytes ← IO.FS.readBinFile file
    return .content bytes
  catch e =>
    match e with
    | .noFileOrDirectory .. => return .absent
    | _ => return .unreadable

/-- A log event on one line. -/
def eventLine (e : Event) : String :=
  " ".intercalate
    (e.level.text :: e.message :: e.fields.map fun (name, value) ↦ name ++ "=" ++ value)

/-- Runs a command line. -/
def main (args : List String) : IO UInt32 := do
  let states ← (CommandLine.filesRead args).mapM fun file ↦ return (file, ← readState file)
  let outcome := CommandLine.run args fun file ↦ (states.lookup file).getD .absent
  for e in outcome.warnings do
    IO.eprintln (eventLine e)
  let exit := outcome.exit
  IO.print exit.output
  if exit.status ≠ 0 then
    IO.eprintln <| match exit.reason with
      | some reason => "Error: " ++ reason
      | none => "Usage: [-c FILE] select|dot|stats -g FILE... [OPTIONS]"
  return exit.status
