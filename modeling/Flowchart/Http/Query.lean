import Flowchart.Http.Address
import Flowchart.Json.Writer

/-!
Queries: names with their values, written as `name=value` between ampersands.
-/
namespace Flowchart.Http

/-- Names in the order of their first occurrence, each with its values. -/
abbrev Query := List (String × List String)

inductive QueryError
  /-- An item of a list is no pair of a name and a value. -/
  | notPair
  | shortPair
  | namedPair
  /-- The value is neither a text nor a list nor an object. -/
  | notFields
deriving DecidableEq, Repr

namespace Query

def add (q : Query) (name value : String) : Query :=
  match q with
  | [] => [(name, [value])]
  | (n, values) :: rest =>
    if n = name then (n, values ++ [value]) :: rest else (n, values) :: add rest name value

def isFormSafe (c : Char) : Bool :=
  c.isAlphanum || c == '_' || c == '.' || c == '-' || c == '~'

/-- A name or value as it is written: a blank as a plus sign, and most marks percent-encoded. -/
def encode (s : String) : List Char :=
  (Text.toChars s.toList).flatMap fun c =>
    if isFormSafe c then [c] else if c = ' ' then ['+'] else Address.encodeChar c

def decode (s : List Char) : String :=
  String.ofList (decodePercent (s.map fun c => if c = '+' then ' ' else c))

def pairText (name value : String) : List Char :=
  encode name ++ '=' :: encode value

def text (q : Query) : List Char :=
  Text.joinWith ['&'] (q.flatMap fun (name, values) => values.map (pairText name))

/-- The query that a text says. A name without a value has an empty one. -/
def ofText (s : List Char) : Query :=
  ((Text.splitAtChar '&' s).filter (!·.isEmpty)).foldl (fun q part =>
    q.add (decode (part.takeWhile (· != '='))) (decode ((part.dropWhile (· != '=')).drop 1))) []

def valueText : Json → String
  | .bool true => "true"
  | .bool false => "false"
  | .null => ""
  | value => value.toDisplayString

/-- What tells the names in a list of pairs apart. Truth values count as one and zero, and numbers by
their values. -/
inductive Key
  | nothing
  | text (s : String)
  | whole (n : Int)
  | real (x : Binary64)
deriving DecidableEq

/-- The key of a value; lists and objects have none. -/
def Key.ofJson? : Json → Option Key
  | .null => some .nothing
  | .bool b => some (.whole (if b then 1 else 0))
  | .number (.whole n) => some (.whole n)
  | .number .negativeZero => some (.whole 0)
  | .number (.real x) => some ((x.toInt?.map .whole).getD (.real x))
  | .string s => some (.text s)
  | .array _ => none
  | .object _ => none

structure Entry where
  key : Key
  name : String
  values : List String

structure Pair where
  key : Key
  name : String
  value : String

/-- The first two items of a list, or points of a text. -/
def Pair.ofJson : Json → Except QueryError Pair
  | .array [] => .error .shortPair
  | .array (name :: rest) =>
    match Key.ofJson? name, rest with
    | none, _ => .error .notPair
    | some _, [] => .error .shortPair
    | some key, value :: _ => .ok ⟨key, name.toDisplayString, valueText value⟩
  | .string s =>
    match Text.points s.toList with
    | name :: value :: _ =>
      let name := String.ofList (Text.ofPoint name)
      .ok ⟨.text name, name, String.ofList (Text.ofPoint value)⟩
    | _ => .error .shortPair
  | .object _ => .error .namedPair
  | _ => .error .notPair

def addPair (entries : List Entry) (pair : Pair) : List Entry :=
  match entries with
  | [] => [⟨pair.key, pair.name, [pair.value]⟩]
  | entry :: rest =>
    if entry.key = pair.key then { entry with values := entry.values ++ [pair.value] } :: rest
    else entry :: addPair rest pair

/-- Puts values under a name; a known name keeps its place and takes the new values. -/
def put (q : Query) (name : String) (values : List String) : Query :=
  match q with
  | [] => [(name, values)]
  | (n, vs) :: rest => if n = name then (n, values) :: rest else (n, vs) :: put rest name values

/-- The query of entries. Two keys may have the same name. -/
def ofEntries (entries : List Entry) : Query :=
  entries.foldl (fun q entry => q.put entry.name entry.values) []

def ofPairs (entries : List Entry) : List Json → Except QueryError Query
  | [] => .ok (ofEntries entries)
  | item :: rest =>
    match Pair.ofJson item with
    | .ok pair => ofPairs (addPair entries pair) rest
    | .error e => .error e

def ofField : String × Json → String × List String
  | (name, .array values) => (name, values.map valueText)
  | (name, value) => (name, [valueText value])

/-- Null, false, zero and what is empty. -/
def isNothing : Json → Bool
  | .null => true
  | .bool b => !b
  | .number (.whole n) => n == 0
  | .number (.real x) => x == .zero
  | .number .negativeZero => true
  | .string s => s.isEmpty
  | .array items => items.isEmpty
  | .object fields => fields.isEmpty

/-- The query that a value gives. Nothing gives an empty one. -/
def ofJson (value : Json) : Except QueryError Query :=
  if isNothing value then .ok []
  else
    match value with
    | .object fields => .ok (fields.map ofField)
    | .string s => .ok (ofText s.toList)
    | .array items => ofPairs [] items
    | _ => .error .notFields

end Query
end Flowchart.Http
