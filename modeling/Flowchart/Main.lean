import Flowchart.Client.Run

/-!
The program on the command line: commands run on the files and the standard input of the machine.
-/
namespace Flowchart.Client

/-- Everything that a stream holds after what was read so far. -/
partial def readRest (stream : IO.FS.Stream) (soFar : String) : IO String := do
  let line ← stream.getLine
  if line.isEmpty then return soFar else readRest stream (soFar ++ line)

def troubleText : IO.Error → String
  | .noFileOrDirectory .. => "No such file or directory"
  | .inappropriateType .. => "Is a directory"
  | .permissionDenied .. => "Permission denied"
  | e => toString e

def loadFile (path : String) : IO FileContent := do
  try
    match String.fromUTF8? (← IO.FS.readBinFile (Text.toPlain path)) with
    | some s => return .text (Text.ofPlain s)
    | none => return .notText
  catch e => return .unreadable (troubleText e)

def saveFile (path content : String) : IO (Option String) := do
  try
    IO.FS.writeBinFile (Text.toPlain path) (Text.toPlain content).toUTF8
    return none
  catch e => return some (troubleText e)

/-- Runs a program. This build has no network, so that the service cannot be reached. -/
def Program.perform : Program → IO UInt32
  | exit code output => do
    IO.print (Text.toPlain output)
    return UInt32.ofNat code
  | breakDown cause => do
    IO.eprintln (Text.toPlain cause.message)
    return 1
  | readInput next => do
    let text ← readRest (← IO.getStdin) ""
    (next (Text.ofPlain text)).perform
  | load path next => do
    let content ← loadFile path
    (next content).perform
  | request _ next => (next (.unreachable "no network")).perform
  | save path content next => do
    let trouble ← saveFile path content
    (next trouble).perform

def usage : String :=
  "usage: flowchart COMMAND ...\n" ++
    String.join (Command.specs.map fun spec => "  " ++ spec.name ++ "\n")

end Flowchart.Client

open Flowchart.Client in
def main (words : List String) : IO UInt32 := do
  match Command.ofLine (words.map Flowchart.Text.ofPlain) with
  | .ok command => command.run.perform
  | .error .help =>
    IO.print usage
    return 0
  | .error _ =>
    IO.eprint usage
    return 2
