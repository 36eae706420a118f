import Flowchart.Json.Reader

/-!
What the service and its editors tell each other over a socket.
-/
namespace Flowchart.Server

inductive Message
  | connected (client : Nat)
  | graphUpdated
  | textUpdated (text : String)
  | pong
deriving DecidableEq, Repr

def Message.toJson : Message → Json
  | connected client => .object [("type", .string "connected"), ("client_id", .ofNat client)]
  | graphUpdated => .object [("type", .string "graph_updated")]
  | textUpdated text => .object [("type", .string "text_updated"), ("text", .string text)]
  | pong => .object [("type", .string "pong")]

/-- The object by which an editor asks for a sign of life. -/
def isPingObject : Json → Bool
  | .object fields =>
    match Json.field? fields "type" with
    | some (.string kind) => kind == "ping"
    | _ => false
  | _ => false

/-- An editor may ask for a sign of life by a bare word or by an object. What is no JSON is no ping,
but JSON that is not read is an error. -/
def isPing [Json.Nesting] (text : String) : Except Json.ReadError Bool :=
  if text == "ping" then .ok true
  else
    match Json.parse text.toList with
    | .ok value => .ok (isPingObject value)
    | .error .malformed => .ok false
    | .error e => .error e

end Flowchart.Server
