import Flowchart.Json.Basic
import Flowchart.Number.Integer
import Flowchart.Number.Reader

/-!
Checking JSON values against the types of fields. All errors of a value are reported, each with the
path that leads to its place.
-/
namespace Flowchart.Schema

inductive PathStep
  | key (name : String)
  | index (n : Nat)
deriving DecidableEq

inductive Cause
  | missing
  | notString
  | notNumber
  | unreadableNumber
  | notFlag
  | unreadableFlag
  | notChoice
  | notLiteral
  | notList
  | notObject
  | notRecord
  | notInteger
  | unreadableInteger
  | oversizedInteger
  | fractionalInteger
  | notFinite
  | belowMinimum
  | malformedText
deriving DecidableEq

def Cause.name : Cause → String
  | missing => "missing"
  | notString => "string_type"
  | notNumber => "float_type"
  | unreadableNumber => "float_parsing"
  | notFlag => "bool_type"
  | unreadableFlag => "bool_parsing"
  | notChoice => "enum"
  | notLiteral => "literal_error"
  | notList => "list_type"
  | notObject => "model_type"
  | notRecord => "model_attributes_type"
  | notInteger => "int_type"
  | unreadableInteger => "int_parsing"
  | oversizedInteger => "int_parsing_size"
  | fractionalInteger => "int_from_float"
  | notFinite => "finite_number"
  | belowMinimum => "greater_than_equal"
  | malformedText => "json_invalid"

structure FieldError where
  path : List PathStep
  cause : Cause
deriving DecidableEq

def PathStep.toJson : PathStep → Json
  | key name => .string name
  | index n => .ofNat n

def FieldError.toJson (e : FieldError) : Json :=
  .object [("loc", .array (e.path.map PathStep.toJson)), ("type", .string e.cause.name)]

def valueAt? : Json → List PathStep → Option Json
  | value, [] => some value
  | .object fields, .key name :: rest => (Json.field? fields name).bind (valueAt? · rest)
  | .array items, .index n :: rest => items[n]?.bind (valueAt? · rest)
  | _, _ :: _ => none

/-- The part of a value that an error is about. A missing field is about the object that lacks it. -/
def FieldError.subject? (e : FieldError) (value : Json) : Option Json :=
  valueAt? value (if e.cause = .missing then e.path.dropLast else e.path)

/-- A value, or everything that is wrong with it. -/
inductive Checked (α : Type)
  | valid (a : α)
  | invalid (errors : List FieldError)

namespace Checked

variable {α β : Type}

def map (f : α → β) : Checked α → Checked β
  | valid a => valid (f a)
  | invalid errors => invalid errors

/-- Applies a function to its argument; the errors of both are kept. -/
def apply : Checked (α → β) → Checked α → Checked β
  | valid f, valid a => valid (f a)
  | valid _, invalid errors => invalid errors
  | invalid errors, valid _ => invalid errors
  | invalid first, invalid second => invalid (first ++ second)

instance : Functor Checked where
  map := map

instance : Pure Checked where
  pure := valid

instance : Seq Checked where
  seq f a := apply f (a ())

def refuse (cause : Cause) : Checked α :=
  invalid [⟨[], cause⟩]

/-- The same, seen from the value that a step leads out of. -/
def within (step : PathStep) : Checked α → Checked α
  | valid a => valid a
  | invalid errors => invalid (errors.map fun e => { e with path := step :: e.path })

def toExcept : Checked α → Except (List FieldError) α
  | valid a => .ok a
  | invalid errors => .error errors

def toOption : Checked α → Option α
  | valid a => some a
  | invalid _ => none

end Checked

/-- How a value becomes the value of a field. -/
abbrev Rule (α : Type) := Json → Checked α

namespace Rule

def text : Rule String
  | .string s => .valid s
  | _ => .refuse .notString

/-- A whole number too large for a floating-point number counts as no number. -/
def ofWhole (n : Int) : Checked Binary64 :=
  match Binary64.ofInt n with
  | .infinite _ => .refuse .notNumber
  | x => .valid x

def lenientNumber : Rule Binary64
  | .number (.whole n) => ofWhole n
  | .number (.real x) => .valid x
  | .number .negativeZero => .valid .zero
  | .bool b => .valid (if b then 1 else 0)
  | .string s =>
    match Binary64.readField? s.toList with
    | some x => .valid x
    | none => .refuse .unreadableNumber
  | _ => .refuse .notNumber

/-- The whole numbers of 64 bits. -/
def isWord (n : Int) : Bool :=
  -0x8000000000000000 ≤ n && n < 0x8000000000000000

/-- A floating-point number is taken for a whole one only if it is one of 64 bits, of which the least one
does not count. -/
def integerOfReal (x : Binary64) : Checked Int :=
  match x.toInt? with
  | some n => if n.natAbs < 0x8000000000000000 then .valid n else .refuse .oversizedInteger
  | none => if x.isFinite then .refuse .fractionalInteger else .refuse .notFinite

def lenientInteger : Rule Int
  | .number (.whole n) => .valid n
  | .number (.real x) => integerOfReal x
  | .number .negativeZero => .valid 0
  | .bool b => .valid (if b then 1 else 0)
  | .string s =>
    match Integer.readField s.toList with
    | .ok n => .valid n
    | .error .unreadable => .refuse .unreadableInteger
    | .error .oversized => .refuse .oversizedInteger
  | _ => .refuse .notInteger

def flagWords : List (String × Bool) :=
  [("true", true), ("t", true), ("yes", true), ("y", true), ("on", true), ("1", true),
   ("false", false), ("f", false), ("no", false), ("n", false), ("off", false), ("0", false)]

/-- Of the whole numbers, zero and one are flags; those beyond 64 bits are not even taken for one. -/
def flagOfWhole (n : Int) : Checked Bool :=
  if n = 0 then .valid false
  else if n = 1 then .valid true
  else if isWord n then .refuse .unreadableFlag
  else .refuse .notFlag

/-- A floating-point number is taken for a flag only if it is a whole number of 64 bits, of which the
least one does not count. -/
def flagOfReal (x : Binary64) : Checked Bool :=
  match x.toInt? with
  | some n => if n.natAbs < 0x8000000000000000 then flagOfWhole n else .refuse .notFlag
  | none => .refuse .notFlag

def lenientFlag : Rule Bool
  | .bool b => .valid b
  | .number (.whole n) => flagOfWhole n
  | .number (.real x) => flagOfReal x
  | .number .negativeZero => .valid false
  | .string s =>
    match flagWords.lookup (String.ofList (Text.asciiLower s.toList)) with
    | some b => .valid b
    | none => .refuse .unreadableFlag
  | _ => .refuse .notFlag

end Rule

/-- What values of other types the fields of a type take, and for which of their own. This is up to those who
check the fields. -/
class Coercion where
  number : Rule Binary64
  integer : Rule Int
  flag : Rule Bool

instance : Coercion := ⟨Rule.lenientNumber, Rule.lenientInteger, Rule.lenientFlag⟩

/-- A value of a type is taken for itself. -/
class LawfulCoercion [Coercion] : Prop where
  number_ofReal : ∀ x, Coercion.number (.ofReal x) = .valid x
  flag_bool : ∀ b, Coercion.flag (.bool b) = .valid b

instance : LawfulCoercion := ⟨fun _ => rfl, fun _ => rfl⟩

namespace Rule

variable {α : Type}

def number [Coercion] : Rule Binary64 := Coercion.number

def integer [Coercion] : Rule Int := Coercion.integer

def flag [Coercion] : Rule Bool := Coercion.flag

def count [Coercion] : Rule Nat := fun value =>
  match integer value with
  | .valid n => if n < 0 then .refuse .belowMinimum else .valid n.toNat
  | .invalid errors => .invalid errors

def named (ofName? : String → Option α) (cause : Cause) : Rule α
  | .string s =>
    match ofName? s with
    | some a => .valid a
    | none => .refuse cause
  | _ => .refuse cause

def orNull (rule : Rule α) : Rule (Option α)
  | .null => .valid none
  | value => (rule value).map some

/-- Checks the items of a list, the first of which has the given number. -/
def items (rule : Rule α) (number : Nat) : List Json → Checked (List α)
  | [] => .valid []
  | item :: rest =>
    List.cons <$> (rule item).within (.index number) <*> items rule (number + 1) rest

def list (rule : Rule α) : Rule (List α)
  | .array values => items rule 0 values
  | _ => .refuse .notList

def object (refusal : Cause) (build : List (String × Json) → Checked α) : Rule α
  | .object fields => build fields
  | _ => .refuse refusal

end Rule

def required {α : Type} (fields : List (String × Json)) (key : String) (rule : Rule α) : Checked α :=
  match Json.field? fields key with
  | some value => (rule value).within (.key key)
  | none => (Checked.refuse .missing).within (.key key)

/-- A field with a value for the case that it is not there. -/
def optional {α : Type} (fields : List (String × Json)) (key : String) (standard : α)
    (rule : Rule α) : Checked α :=
  match Json.field? fields key with
  | some value => (rule value).within (.key key)
  | none => .valid standard

/-- A value that is none of the names of an enumeration. -/
structure BadChoice where
  /-- The text of the value. -/
  value : String
  enumeration : String
deriving DecidableEq

def BadChoice.message (bad : BadChoice) : String :=
  bad.value ++ " is not a valid " ++ bad.enumeration

end Flowchart.Schema
