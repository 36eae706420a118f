import Flowchart.Http.Basic
import Flowchart.Json.Writer
import Flowchart.Schema.Request
import Flowchart.Text.Blank

/-!
Export of a diagram text through a rendering service.
-/
namespace Flowchart.Server

open Schema

/-- What the rendering service is asked for. -/
structure ExportOrder where
  code : String
  format : ExportFormat
deriving DecidableEq

namespace ExportOrder

def toJson (order : ExportOrder) : Json :=
  .object [("code", .string order.code), ("format", .string order.format.name)]

/-- The first halves of surrogate pairs in a text, and where they stand. -/
def halvesText (text : List Char) : String :=
  let points := Text.points text
  let first := (points.takeWhile (!Text.isHalf ·)).length
  let halves := (points.drop first).takeWhile Text.isHalf
  match halves with
  | [half] =>
    "character " ++ String.ofList (Text.quoted (Text.ofPoint half)) ++ " in position " ++ toString first
  | _ => "characters in position " ++ toString first ++ "-" ++ toString (first + halves.length - 1)

/-- What is said of an order that holds half of a surrogate pair. -/
def encodingText (order : ExportOrder) : String :=
  String.ofList (Text.quoted "utf-8".toList) ++ " codec " ++
    String.ofList ['c', 'a', 'n', Text.singleQuote, 't'] ++ " encode " ++ halvesText order.toJson.dense ++
    ": surrogates not allowed"

end ExportOrder

/-- Why there is no rendered diagram. -/
inductive ExportError
  | noCode
  | badFormat (bad : BadChoice)
  | unreachable (reason : String)
  | refused (detail : String)
  /-- The order cannot be sent. -/
  | unsendable (reason : String)
  /-- The service refused in a JSON value that is no object. -/
  | unreadableRefusal
  /-- The service refused in JSON that is nested too deep. -/
  | tooDeepRefusal
deriving DecidableEq

def ExportError.message? : ExportError → Option String
  | noCode => some "No code provided"
  | badFormat bad => some bad.message
  | unreachable reason => some ("Export service unreachable: " ++ reason)
  | refused detail => some ("Export failed: " ++ detail)
  | unsendable reason => some reason
  | unreadableRefusal => none
  | tooDeepRefusal => none

/-- What is up to the HTTP client and the machine on which it runs: which orders cannot be sent, with what it
says of them, the text of a body, and which values are not nested too deep to be shown in a message. -/
class HttpClient where
  refusal? : ExportOrder → Option String
  text : Http.Bytes → String
  canShow : Json → Bool

instance : HttpClient where
  refusal? order := if Text.isWhole order.code.toList then none else some order.encodingText
  text := Http.Bytes.text
  canShow _ := true

/-- A code without halves of surrogate pairs can be sent, and so can what is said of other ones. -/
class LawfulHttpClient [HttpClient] : Prop where
  refusal?_of_isWhole : ∀ order : ExportOrder, Text.isWhole order.code.toList = true →
    HttpClient.refusal? order = none
  isWhole_of_refusal? : ∀ (order : ExportOrder) (reason : String),
    HttpClient.refusal? order = some reason → Text.isWhole reason.toList = true

namespace ExportOrder

/-- The order for a text in a format. A blank text orders nothing, whatever the format. -/
def make (code : String) (format : Except BadChoice ExportFormat) :
    Except ExportError ExportOrder :=
  if (Text.trim code.toList).isEmpty then .error .noCode
  else
    match format with
    | .error bad => .error (.badFormat bad)
    | .ok format => .ok ⟨code, format⟩

/-- What an object tells of an error. -/
def detail (fields : List (String × Json)) : Json :=
  (Json.field? fields "error").getD (.string "Unknown error")

/-- Why the service refused, told from its answer. -/
def refusal [Json.Nesting] [HttpClient] (status : Nat) (body : Http.Bytes) : ExportError :=
  match body.value with
  | .ok (.object fields) =>
    if HttpClient.canShow (detail fields) then .refused (detail fields).toDisplayString
    else .tooDeepRefusal
  | .ok _ => .unreadableRefusal
  | .error (.unreadable .tooDeep) => .tooDeepRefusal
  | .error _ =>
    let text := HttpClient.text body
    .refused (if text.isEmpty then "HTTP " ++ toString status else text)

end ExportOrder

/-- What becomes of an order that is sent. -/
inductive Rendering
  | unreachable (reason : String)
  | answered (status : Nat) (body : Http.Bytes)
deriving DecidableEq

namespace Rendering

/-- An answer whose body is a text. -/
def ofOutcome : Http.Outcome → Rendering
  | .unreachable reason => .unreachable reason
  | .answered status body => .answered status (.ofText body)

def conclude [Json.Nesting] [HttpClient] : Rendering → Except ExportError Http.Bytes
  | .unreachable reason => .error (.unreachable reason)
  | .answered status body =>
    if Http.isError status then .error (ExportOrder.refusal status body) else .ok body

end Rendering

instance : Coe Http.Outcome Rendering := ⟨Rendering.ofOutcome⟩

/-- What the rendering service makes of an order. -/
abbrev Renderer := ExportOrder → Rendering

/-- An export: the order that was sent, if any, and the result. -/
structure Export where
  sent : Option ExportOrder
  result : Except ExportError Http.Bytes

def Export.run [Json.Nesting] [HttpClient] (renderer : Renderer) (code : String)
    (format : Except BadChoice ExportFormat) : Export :=
  match ExportOrder.make code format with
  | .error e => ⟨none, .error e⟩
  | .ok order =>
    match HttpClient.refusal? order with
    | none => ⟨some order, (renderer order).conclude⟩
    | some reason => ⟨none, .error (.unsendable reason)⟩

end Flowchart.Server
