import Flowchart.Grammar.StyleLine
import Flowchart.Http.Basic

/-!
What a command does: it reads texts, makes requests, writes files, and ends with an output.
-/
namespace Flowchart.Client

inductive FileContent
  | text (s : String)
  /-- The bytes of the file spell no text. -/
  | notText
  | unreadable (reason : String)

/-- Why a command broke off without an answer. -/
inductive Breakdown
  /-- A file is no text. -/
  | notText
  /-- The answer of the service is no JSON. -/
  | notJson
  /-- The answer of the service is a value without the parts that were asked for. -/
  | wrongForm
  /-- The answer of the service lacks a field. -/
  | missingField
  /-- The file to be written has no name. -/
  | unnamedFile
  /-- A path holds a null character. -/
  | badPath
  /-- A file cannot be written. -/
  | unwritable (reason : String)
  /-- There is a whole number that is not read for its length. -/
  | oversized (numeral : OversizedNumeral)
  /-- A diagram has a position that is not read. -/
  | badPosition (e : PositionError)
  /-- There is JSON that is nested too deep. -/
  | tooDeep
deriving DecidableEq

def Breakdown.message : Breakdown → String
  | notText => "the file is not a text"
  | notJson => "the answer is not JSON"
  | wrongForm => "the answer has another form"
  | missingField => "the answer lacks a field"
  | unnamedFile => "the file to be written has no name"
  | badPath => "embedded null byte"
  | unwritable reason => reason
  | oversized numeral => numeral.message
  | badPosition e => e.message
  | tooDeep => "there is JSON that is nested too deep"

def Breakdown.ofReadError : Json.ReadError → Breakdown
  | .malformed => notJson
  | .oversized numeral => oversized numeral
  | .tooDeep => tooDeep

inductive Program
  /-- Ends with an exit code and an output. -/
  | exit (code : Nat) (output : String)
  | breakDown (cause : Breakdown)
  /-- Reads the standard input. -/
  | readInput (next : String → Program)
  | load (path : String) (next : FileContent → Program)
  | request (request : Http.Request) (next : Http.Outcome → Program)
  /-- Writes a file; the reason is why that failed. -/
  | save (path content : String) (next : Option String → Program)

end Flowchart.Client
