import Flowchart.Client.Call
import Flowchart.Client.Command
import Flowchart.Client.Program
import Flowchart.Diagram.Check
import Flowchart.Diagram.Writer
import Flowchart.Graph.Json
import Flowchart.Json.Writer
import Flowchart.Text.Blank

/-!
What the commands do: some work on texts and documents alone, the others ask the service.
-/
namespace Flowchart

def DocumentError.reason : DocumentError → String
  | .notObject => "not an object"
  | .notCollection => "not a collection of objects"
  | .invalid errors => toString errors.length ++ " invalid fields"
  | .badChoice bad => bad.message

namespace Client

open Diagram (Outcome Reading)
open Schema (Coercion)

namespace Program

/-- Ends with a JSON value on one line. -/
def answer (value : Json) (code : Nat) : Program :=
  .exit code (value.toCompactString ++ "\n")

def refuse (message : String) : Program :=
  answer (.object [("status", .string "error"), ("error", .string message)]) 1

def print (text : String) : Program :=
  .exit 0 (text ++ "\n")

end Program

open Program

/-- The text of a file, where a carriage return ends a line like a line feed, alone or before one. -/
def unifyLineEnds : List Char → List Char
  | [] => []
  | '\r' :: '\n' :: rest => '\n' :: unifyLineEnds rest
  | '\r' :: rest => '\n' :: unifyLineEnds rest
  | c :: rest => c :: unifyLineEnds rest

def isPath (path : String) : Bool :=
  !path.toList.contains (Char.ofNat 0)

/-- Goes on with the text of a file; a dash stands for the standard input. -/
def withSource (path : String) (next : String → Program) : Program :=
  if path = "-" then .readInput next
  else if !isPath path then .breakDown .badPath
  else
    .load path fun
      | .text s => next (String.ofList (unifyLineEnds s.toList))
      | .notText => .breakDown .notText
      | .unreadable reason => refuse ("Cannot read " ++ path ++ ": " ++ reason)

def withOutcome (outcome : Except PositionError Outcome) (next : Outcome → Program) : Program :=
  match outcome with
  | .error e => .breakDown (.badPosition e)
  | .ok outcome => next outcome

/-- Goes on with what a text says, or answers why it says nothing. -/
def withReading (path : String) (next : Reading → Program) : Program :=
  withSource path fun text =>
    withOutcome (Diagram.readArranged text) fun
      | .error e => answer e.toJson 1
      | .ok reading => next reading

def withDocument [Json.Nesting] [Coercion] (path : String) (next : Document → Program) : Program :=
  let refuseDocument (reason : String) :=
    refuse ("Invalid graph document in " ++ path ++ ": " ++ reason)
  withSource path fun text =>
    match Json.parse text.toList with
    | .error .tooDeep => .breakDown .tooDeep
    | .error .malformed => refuseDocument "not JSON"
    | .error (.oversized numeral) => refuseDocument numeral.message
    | .ok value =>
      match Document.ofJson .first value with
      | .error e => refuseDocument e.reason
      | .ok (d, _) => next d

def occursIn (part : List Char) : List Char → Bool
  | [] => part.isEmpty
  | c :: rest => part.isPrefixOf (c :: rest) || occursIn part rest

def isDetail : Json → Bool
  | .string s => s == "detail"
  | _ => false

/-- Ends with an error that the service answered. An object may tell the detail, and what tells none is
handed on as it is; but a list or a text in which the word for it stands is neither. -/
def reportError [Json.Nesting] (status : Nat) (body : String) : Program :=
  match Json.parse body.toList with
  | .error .malformed => refuse ("API error (" ++ toString status ++ "): " ++ body)
  | .error e => .breakDown (.ofReadError e)
  | .ok value =>
    match value with
    | .object fields =>
      match Json.field? fields "detail" with
      | some detail => refuse ("API error: " ++ detail.toDisplayString)
      | none => answer value 1
    | .array items => if items.any isDetail then .breakDown .wrongForm else answer value 1
    | .string s =>
      if occursIn "detail".toList s.toList then .breakDown .wrongForm else answer value 1
    | _ => .breakDown .wrongForm

/-- An address ends neither in blanks nor in a number sign with nothing after it. -/
def finishAddress (path : String) : String :=
  let s := Text.dropEndWhile Text.isBlank path.toList
  String.ofList (if s.getLast? = some '#' then s.dropLast else s)

def withBody [Json.Nesting] (request : Http.Request) (next : String → Program) : Program :=
  .request { request with path := finishAddress request.path } fun
    | .unreachable reason =>
      refuse ("Connection failed: " ++ reason ++ ". Is the flowsync backend running?")
    | .answered status body => if Http.isError status then reportError status body else next body

def withValue [Json.Nesting] (request : Http.Request) (next : Json → Program) : Program :=
  withBody request fun body =>
    match Json.parse body.toList with
    | .error e => .breakDown (.ofReadError e)
    | .ok value => next value

def hand [Json.Nesting] (request : Http.Request) : Program :=
  withValue request fun value => answer value 0

def printText : Json → Program
  | .object fields =>
    match Json.field? fields "text" with
    | some text => print text.toDisplayString
    | none => .breakDown .missingField
  | _ => .breakDown .wrongForm

def granted (fields : List (String × Json)) : Json :=
  .object (("success", .bool true) :: fields)

def reportIssues (issues : List Issue) : Program :=
  answer (granted
    [("issues", .array (issues.map Issue.toJson)),
     ("summary", (IssueSummary.of issues).toJson)]) 0

/-- Writes what the service exported into a file. A blank entry names no file. -/
def store (output : Entry String) (content : String) : Program :=
  match output with
  | .blank => .breakDown .unnamedFile
  | .value path =>
    if !isPath path then .breakDown .badPath
    else
      .save path content fun
        | some reason => .breakDown (.unwritable reason)
        | none =>
          answer (granted
            [("output", .string path), ("bytes", .ofNat (Text.byteSize content))]) 0

/-- The value that is sent for an entry; for a blank one, the empty list. -/
def Entry.toJson {α : Type} (f : α → Json) : Entry α → Json
  | value a => f a
  | blank => .array []

def Entry.toText : Entry String → String
  | value s => s
  | blank => "[]"

def textEntry : Entry String → Json :=
  Entry.toJson .string

def numberEntry : Entry Binary64 → Json :=
  Entry.toJson .ofReal

def nameEntry {α : Type} (name : α → String) : Entry α → Json :=
  Entry.toJson fun a => .string (name a)

def Command.run [Json.Nesting] [Coercion] : Command → Program
  | parse file isArranged =>
    withSource file fun text =>
      withOutcome (if isArranged then Diagram.readArranged text else Diagram.read text) fun outcome =>
        answer outcome.toJson (if outcome.isOk then 0 else 1)
  | format file => withReading file fun reading => print (Diagram.write reading.document)
  | validate file =>
    withReading file fun reading => reportIssues (reading.issues ++ reading.document.issues)
  | layout file direction =>
    withDocument file fun d =>
      let direction := direction.getD d.direction
      let arranged := { d.arranged direction with direction := direction }
      answer (granted [("document", arranged.toJson)]) 0
  | render file => withDocument file fun d => print (Diagram.write d)
  | getText isRaw => if isRaw then withValue Call.readText printText else hand Call.readText
  | setText file => withSource file fun text => hand (Call.writeText (.string text))
  | flush => hand Call.flush
  | getGraph => hand Call.readGraph
  | addNode label shape x y =>
    hand (Call.addNode (textEntry label) (nameEntry NodeShape.name shape) (.ofOption numberEntry x)
      (.ofOption numberEntry y))
  | updateNode id label shape x y fill stroke textColor =>
    hand (Call.updateNode id.toText
      [("label", .ofOption textEntry label),
       ("shape", .ofOption (nameEntry NodeShape.name) shape),
       ("x", .ofOption numberEntry x), ("y", .ofOption numberEntry y)]
      [("background_color", .ofOption textEntry fill), ("border_color", .ofOption textEntry stroke),
       ("text_color", .ofOption textEntry textColor)])
  | deleteNode id => hand (Call.deleteNode id.toText)
  | addEdge source target label kind =>
    hand (Call.addEdge (textEntry source) (textEntry target) (.ofOption textEntry label)
      (nameEntry ArrowKind.name kind))
  | updateEdge id label kind stroke =>
    hand (Call.updateEdge id.toText
      [("label", .ofOption textEntry label),
       ("arrow_type", .ofOption (nameEntry ArrowKind.name) kind)]
      [("stroke_color", .ofOption textEntry stroke)])
  | deleteEdge id => hand (Call.deleteEdge id.toText)
  | setDirection direction => hand (Call.setDirection (.string direction.name))
  | validateRemote => hand Call.validate
  | exportText fileFormat output =>
    withBody (Call.exportText (nameEntry ExportFormat.name fileFormat)) (store output)

end Client
end Flowchart
