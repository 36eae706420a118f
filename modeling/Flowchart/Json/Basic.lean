import Flowchart.Number.Binary64
import Flowchart.Text.Point

/-!
JSON values. The fields of an object keep their order, and each key occurs once.
-/
namespace Flowchart

namespace Json

/-- A number as JSON writes it. Whole numbers have any size; a negative zero is written with its
sign and is otherwise zero. -/
inductive Number
  | whole (n : Int)
  | real (x : Binary64)
  | negativeZero
deriving DecidableEq

end Json

inductive Json
  | null
  | bool (b : Bool)
  | number (n : Json.Number)
  | string (s : String)
  | array (items : List Json)
  | object (fields : List (String × Json))

namespace Json

instance : Inhabited Json := ⟨.null⟩

def ofNat (n : Nat) : Json := .number (.whole n)

def ofReal (x : Binary64) : Json := .number (.real x)

def ofOption {α : Type} (f : α → Json) : Option α → Json
  | none => .null
  | some a => f a

/-- Puts a field into an object: a known key keeps its place and takes the new value. -/
def putField (fields : List (String × Json)) (key : String) (value : Json) : List (String × Json) :=
  match fields with
  | [] => [(key, value)]
  | (k, v) :: rest => if k = key then (k, value) :: rest else (k, v) :: putField rest key value

def field? (fields : List (String × Json)) (key : String) : Option Json :=
  (fields.find? (·.1 == key)).map (·.2)

mutual

/-- The values in a value that hold no others, the first one first; the keys of an object are among them. -/
def leaves : Json → List Json
  | .array items => leavesOfItems items
  | .object fields => leavesOfFields fields
  | value => [value]

def leavesOfItems : List Json → List Json
  | [] => []
  | item :: rest => item.leaves ++ leavesOfItems rest

def leavesOfFields : List (String × Json) → List Json
  | [] => []
  | (key, value) :: rest => .string key :: value.leaves ++ leavesOfFields rest

end

def isFinite (value : Json) : Bool :=
  value.leaves.all fun
    | .number (.real x) => x.isFinite
    | _ => true

/-- No text in the value holds half a surrogate pair. -/
def isWhole (value : Json) : Bool :=
  value.leaves.all fun
    | .string s => Text.isWhole s.toList
    | _ => true

def isSendable (value : Json) : Bool :=
  value.isFinite && value.isWhole

end Json
end Flowchart
