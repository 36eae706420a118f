import Flowchart.Http.Basic
import Flowchart.Json.Writer
import Flowchart.Schema.Graph
import Flowchart.Server.Operation

/-!
Requests to the service and its answers.
-/
namespace Flowchart.Server

open Schema

inductive Content
  | json (value : Json)
  | file (bytes : Http.Bytes) (mediaType name : String)
  | plain (text : String)
  | nothing

namespace Content

def text : Content → String
  | json value => value.toDenseString
  | file bytes _ _ => bytes.text
  | plain text => text
  | nothing => ""

def mediaType? : Content → Option String
  | json _ => some "application/json"
  | file _ mediaType _ => some mediaType
  | plain _ => some "text/plain; charset=utf-8"
  | nothing => none

/-- What a client is to do with a file. -/
def disposition? : Content → Option String
  | file _ _ name =>
    some ("attachment; filename=" ++
      String.ofList (Text.doubleQuote :: name.toList ++ [Text.doubleQuote]))
  | _ => none

end Content

structure Answer where
  status : Nat
  content : Content

namespace Answer

def ok (fields : List (String × Json)) : Answer :=
  ⟨200, .json (.object fields)⟩

def granted (fields : List (String × Json)) : Answer :=
  ok (("success", .bool true) :: fields)

def refused (status : Nat) (detail : String) : Answer :=
  ⟨status, .json (.object [("detail", .string detail)])⟩

def invalid (errors : List FieldError) : Answer :=
  ⟨422, .json (.object [("detail", .array (errors.map FieldError.toJson))])⟩

def nodeNotFound : Answer := refused 404 "Node not found"

def edgeNotFound : Answer := refused 404 "Edge not found"

def unparsable : Answer := refused 400 "There was an error parsing the body"

def broken : Answer := ⟨500, .plain "Internal Server Error"⟩

def misdirected : Misdirection → Answer
  | .unknownPath => refused 404 "Not Found"
  | .otherMethod => refused 405 "Method Not Allowed"
  | .moved => ⟨307, .nothing⟩

end Answer

structure Request where
  method : String
  /-- The path, percent-encoded. -/
  path : String
  body : Option String

/-- What the text of a request's body amounts to. -/
inductive Body
  | absent
  | malformed
  /-- There is no telling what is wrong with the text. -/
  | unparsable
  | value (v : Json)

namespace Body

/-- No text and an empty one are no body. -/
def read [Json.Nesting] (text : Option String) : Body :=
  match text.filter (!·.isEmpty) with
  | none => .absent
  | some text =>
    match Http.bodyValue text with
    | .ok v => .value v
    | .error (.unreadable .malformed) => .malformed
    | .error _ => .unparsable

end Body

/-- What is up to the framework on which the service is built: which operation a request asks for, what its
body amounts to, and which values can be sent. -/
class Framework where
  find : (method path : String) → Except Misdirection Operation
  read : Option String → Body
  canSend : Json → Bool

instance [Json.Nesting] : Framework := ⟨Operation.find, Body.read, Json.isSendable⟩

/-- An answer that says in one text what it is about can be sent exactly if no half of a surrogate pair is in
the text. -/
class LawfulFramework [Framework] : Prop where
  canSend_detail : ∀ detail, Framework.canSend (.object [("detail", .string detail)]) =
    Text.isWhole detail.toList

/-- The answer as it leaves the service: a value that cannot be sent breaks it. -/
def Answer.sent [Framework] (answer : Answer) : Answer :=
  match answer.content with
  | .json value => if Framework.canSend value then answer else broken
  | _ => answer

namespace Body

/-- What a rule makes of the body. -/
def check {α : Type} (rule : Rule α) (body : Body) : Except Answer (Checked α) :=
  match body with
  | .absent => .ok ((Checked.refuse .missing).within (.key "body"))
  | .malformed => .ok ((Checked.refuse .malformedText).within (.key "body"))
  | .unparsable => .error .unparsable
  | .value v => .ok ((rule v).within (.key "body"))

/-- The body as the checks see it, below its name. -/
def checkedValue : Body → Json
  | .value (.object fields) => .object [("body", .object (resolveEnds fields))]
  | .value v => .object [("body", v)]
  | _ => .object []

/-- The answer to errors in a body. It shows what each of them is about, which breaks it if that
cannot be written. -/
def refusal [Framework] (body : Body) (errors : List FieldError) : Answer :=
  let subjects := errors.filterMap (·.subject? body.checkedValue)
  if subjects.all Framework.canSend then .invalid errors else .broken

end Body

end Flowchart.Server
