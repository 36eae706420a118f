import Flowchart.Http.Encoding
import Flowchart.Json.Reader

/-!
Requests to another service, and what becomes of them.
-/
namespace Flowchart.Http

inductive Method
  | get
  | post
  | put
  | patch
  | delete
deriving DecidableEq, Repr

namespace Method

def name : Method → String
  | get => "GET"
  | post => "POST"
  | put => "PUT"
  | patch => "PATCH"
  | delete => "DELETE"

def ofName? (s : String) : Option Method :=
  [get, post, put, patch, delete].find? (·.name == s)

def carriesBody : Method → Bool
  | post => true
  | put => true
  | patch => true
  | get => false
  | delete => false

def carriesQuery : Method → Bool
  | get => true
  | _ => false

end Method

structure Request where
  method : Method
  /-- The path below the address of the service. -/
  path : String
  body : Option Json

inductive Outcome
  | unreachable (reason : String)
  | answered (status : Nat) (body : String)

def isError (status : Nat) : Bool :=
  400 ≤ status

inductive BodyError
  /-- The bytes spell no text. -/
  | undecodable
  | unreadable (e : Json.ReadError)
deriving DecidableEq

def Bytes.value [Json.Nesting] (bytes : Bytes) : Except BodyError Json :=
  match bytes.jsonText? with
  | none => .error .undecodable
  | some text => (Json.parse text).mapError .unreadable

def bodyValue [Json.Nesting] (body : String) : Except BodyError Json :=
  (Bytes.ofText body).value

end Flowchart.Http
