import Flowchart.Http.Path
import Flowchart.Text.Blank

/-!
The operations of the service, each with its method and path.
-/
namespace Flowchart.Server

inductive Operation
  | readHealth
  | readText
  | writeText
  | readGraph
  | setDirection
  | select
  | editLabel
  | flush
  | addNode
  | readNode (id : String)
  | updateNode (id : String)
  | deleteNode (id : String)
  | addEdge
  | readEdge (id : String)
  | updateEdge (id : String)
  | deleteEdge (id : String)
  | listShapes
  | listArrows
  | listDirections
  | validate
  | exportText
deriving DecidableEq, Repr

/-- Why a request reaches no operation. -/
inductive Misdirection
  | unknownPath
  | otherMethod
  /-- The path has slashes too many at its end. -/
  | moved
deriving DecidableEq, Repr

namespace Operation

/-- The name of a method in capitals. The long s and the two ligatures of s and t have capitals among the
letters A to Z, like the small letters a to z; no other letter of a method has. -/
def capitals (name : List Char) : List Char :=
  name.flatMap fun c =>
    if c.toNat = 0x17f then ['S']
    else if c.toNat = 0xfb05 ∨ c.toNat = 0xfb06 then ['S', 'T']
    else [c.toUpper]

/-- The operations at a fixed path, by method. -/
def atFixed : List String → List (String × Operation)
  | ["health"] => [("GET", readHealth)]
  | ["text"] => [("GET", readText), ("PUT", writeText)]
  | ["graph"] => [("GET", readGraph)]
  | ["direction"] => [("PUT", setDirection)]
  | ["selection"] => [("PUT", select)]
  | ["editing"] => [("PUT", editLabel)]
  | ["sync", "flush"] => [("POST", flush)]
  | ["nodes"] => [("POST", addNode)]
  | ["edges"] => [("POST", addEdge)]
  | ["enums", "shapes"] => [("GET", listShapes)]
  | ["enums", "arrows"] => [("GET", listArrows)]
  | ["enums", "directions"] => [("GET", listDirections)]
  | ["validate"] => [("GET", validate)]
  | ["export"] => [("POST", exportText)]
  | _ => []

/-- The operations on one node or one edge, by method. -/
def atElement : List String → List (String × Operation)
  | ["nodes", id] =>
    if id.isEmpty then []
    else [("GET", readNode id), ("PATCH", updateNode id), ("DELETE", deleteNode id)]
  | ["edges", id] =>
    if id.isEmpty then []
    else [("GET", readEdge id), ("PATCH", updateEdge id), ("DELETE", deleteEdge id)]
  | _ => []

/-- The operations that a table has for a path. All of them are below one segment. -/
def below (table : List String → List (String × Operation)) (path : List Char) :
    List (String × Operation) :=
  match Http.segments? path with
  | some ("api" :: rest) => table rest
  | _ => []

/-- The operations at a path. A line feed at the end of a fixed path is passed over. -/
def at? (path : List Char) : List (String × Operation) :=
  below atFixed path ++ below atElement path ++
    (if path.getLast? = some '\n' then below atFixed path.dropLast else [])

def dropSlashes (path : List Char) : List Char :=
  Text.dropEndWhile (· == '/') path

def find (method : String) (encodedPath : String) : Except Misdirection Operation :=
  let path := Http.decodePercent encodedPath.toList
  match at? path with
  | [] =>
    if path.getLast? = some '/' && !(at? (dropSlashes path)).isEmpty then .error .moved
    else .error .unknownPath
  | found =>
    match found.lookup method with
    | some operation => .ok operation
    | none => .error .otherMethod

end Operation
end Flowchart.Server
