import Flowchart.Client.Call
import Flowchart.Http.Query
import Flowchart.Json.Writer

/-!
Tools with which an agent works on a diagram. A tool makes one request to the service and hands on the
answer.
-/
namespace Flowchart.Client

inductive ToolError
  /-- An argument is missing or unknown. -/
  | badArguments
  | unknownMethod (name : String)
  | invalidAddress
  | badQuery (e : Http.QueryError)
  /-- The body holds an infinite or undefined number. -/
  | notFinite
  /-- The body holds half a surrogate pair. -/
  | notWhole
  | unreachable (reason : String)
  | badAnswer (e : Http.BodyError)
  /-- The answer is an error in a JSON value that is no object. -/
  | unreadableError
  | refused (detail : String)
deriving DecidableEq

def ToolError.message? : ToolError → Option String
  | unknownMethod name => some ("Unknown method: " ++ name)
  | notFinite => some "Out of range float values are not JSON compliant"
  | badAnswer (.unreadable (.oversized numeral)) => some numeral.message
  | refused detail => some ("API error: " ++ detail)
  | _ => none

/-- The value that an outcome stands for. The reading of a text that failed is an answer like any
other. -/
def resultOf [Json.Nesting] : Http.Outcome → Except ToolError Json
  | .unreachable reason => .error (.unreachable reason)
  | .answered status body =>
    match Http.bodyValue body with
    | .error e => .error (.badAnswer e)
    | .ok value =>
      if Http.isError status && status != 422 then
        match value with
        | .object fields =>
          .error (.refused ((Json.field? fields "detail").getD (.string "Unknown error")).toDisplayString)
        | _ => .error .unreadableError
      else .ok value

def serviceOrigin : String := "http://127.0.0.1:8765"

def servicePath : String := "/api"

/-- An address as a path below the service; a place elsewhere is told in full. -/
def pathOfAddress (a : Http.Address) : String :=
  if servicePath.toList.isPrefixOf a.text then String.ofList (a.text.drop servicePath.length)
  else serviceOrigin ++ String.ofList a.text

/-- The address of a path below the service, with a query in place of its own if one is given. -/
def addressOf (path : String) (query : Json) : Except ToolError Http.Address :=
  match Http.Address.read? serviceOrigin (servicePath ++ path).toList with
  | none => .error .invalidAddress
  | some a =>
    match query with
    | .null => .ok a
    | query =>
      match Http.Query.ofJson query with
      | .error e => .error (.badQuery e)
      | .ok [] => .ok { a with query := none }
      | .ok q =>
        if Http.Address.greatestLength < q.text.length then .error .invalidAddress
        else .ok { a with query := some q.text }

/-- A request as it is sent, with its address in the normal form. -/
def prepare (request : Http.Request) (query : Json) : Except ToolError Http.Request :=
  match addressOf request.path query with
  | .error e => .error e
  | .ok a =>
    let sent := { request with path := pathOfAddress a }
    match request.body with
    | none => .ok sent
    | some body =>
      if !body.isFinite then .error .notFinite
      else if !body.isWhole then .error .notWhole
      else .ok sent

/-- The argument of a name; null stands for one that is not given. -/
def argument (arguments : List (String × Json)) (name : String) : Json :=
  (Json.field? arguments name).getD .null

/-- A request by the name of its method. Some methods carry the argument for the body, and one carries
the argument for the query; the names of the two parts that are always given are no arguments. -/
def plainRequest (method path : String) (arguments : List (String × Json)) :
    Except ToolError Http.Request :=
  if arguments.any fun (name, _) => ["method", "endpoint"].contains name then .error .badArguments
  else
    match Http.Method.ofName? method with
    | none => .error (.unknownMethod method)
    | some m =>
      let body :=
        match argument arguments "json" with
        | .null => none
        | value => if m.carriesBody then some value else none
      prepare ⟨m, path, body⟩ (if m.carriesQuery then argument arguments "params" else .null)

inductive Tool
  | getText
  | setText
  | getGraph
  | addNode
  | updateNode
  | deleteNode
  | addEdge
  | deleteEdge
  | setDirection
  | syncNow
  | validate
deriving DecidableEq, Repr

namespace Tool

def all : List Tool :=
  [getText, setText, getGraph, addNode, updateNode, deleteNode, addEdge, deleteEdge, setDirection,
   syncNow, validate]

def name : Tool → String
  | getText => "flow_get_text"
  | setText => "flow_set_text"
  | getGraph => "flow_get_graph"
  | addNode => "flow_add_node"
  | updateNode => "flow_update_node"
  | deleteNode => "flow_delete_node"
  | addEdge => "flow_add_edge"
  | deleteEdge => "flow_delete_edge"
  | setDirection => "flow_set_direction"
  | syncNow => "flow_sync_now"
  | validate => "flow_validate"

def ofName? (s : String) : Option Tool :=
  all.find? (·.name == s)

/-- The parameters of a tool, with the standard value of those that may be left out. -/
def parameters : Tool → List (String × Option Json)
  | getText => []
  | setText => [("text", none)]
  | getGraph => []
  | addNode =>
    [("label", none), ("shape", some (.string "rectangle")), ("x", some .null), ("y", some .null)]
  | updateNode =>
    [("node_id", none), ("label", some .null), ("shape", some .null), ("fill", some .null),
     ("stroke", some .null), ("text_color", some .null)]
  | deleteNode => [("node_id", none)]
  | addEdge =>
    [("source", none), ("target", none), ("label", some .null),
     ("arrow_type", some (.string "arrow"))]
  | deleteEdge => [("edge_id", none)]
  | setDirection => [("direction", none)]
  | syncNow => []
  | validate => []

/-- The value of every parameter: nothing if an argument is missing or unknown. -/
def bind? (parameters : List (String × Option Json)) (arguments : List (String × Json)) :
    Option (List (String × Json)) :=
  if arguments.all fun (key, _) => parameters.any (·.1 == key) then
    parameters.mapM fun (key, standard) => do
      some (key, ← (Json.field? arguments key).or standard)
  else none

def request (tool : Tool) (values : List (String × Json)) : Http.Request :=
  let value (name : String) : Json := argument values name
  let name (key : String) : String := (value key).toDisplayString
  match tool with
  | getText => Call.readText
  | setText => Call.writeText (value "text")
  | getGraph => Call.readGraph
  | addNode => Call.addNode (value "label") (value "shape") (value "x") (value "y")
  | updateNode =>
    Call.updateNode (name "node_id") [("label", value "label"), ("shape", value "shape")]
      [("background_color", value "fill"), ("border_color", value "stroke"),
       ("text_color", value "text_color")]
  | deleteNode => Call.deleteNode (name "node_id")
  | addEdge => Call.addEdge (value "source") (value "target") (value "label") (value "arrow_type")
  | deleteEdge => Call.deleteEdge (name "edge_id")
  | setDirection => Call.setDirection (value "direction")
  | syncNow => Call.flush
  | validate => Call.validate

def start (tool : Tool) (arguments : List (String × Json)) : Except ToolError Http.Request :=
  match bind? tool.parameters arguments with
  | some values => prepare (tool.request values) .null
  | none => .error .badArguments

def finish [Json.Nesting] (outcome : Http.Outcome) : Except ToolError String :=
  (resultOf outcome).map Json.toIndentedString

end Tool
end Flowchart.Client
