import Flowchart.Graph.Basic
import Flowchart.Json.Writer
import Flowchart.Schema.Check

/-!
Reading styles, nodes, edges and whole documents from JSON.
-/
namespace Flowchart

open Schema

def Schema.choose {α : Type} (enumeration : String) (ofName? : String → Option α) (value : Json) :
    Except BadChoice α :=
  match value with
  | .string s =>
    match ofName? s with
    | some a => .ok a
    | none => .error ⟨value.toQuotedString, enumeration⟩
  | _ => .error ⟨value.toQuotedString, enumeration⟩

def DiagramKind.choose : Json → Except BadChoice DiagramKind :=
  Schema.choose "DiagramType" DiagramKind.ofName?

def Direction.choose : Json → Except BadChoice Direction :=
  Schema.choose "Direction" Direction.ofName?

def NodeShape.choose : Json → Except BadChoice NodeShape :=
  Schema.choose "NodeShape" NodeShape.ofName?

def ArrowKind.choose : Json → Except BadChoice ArrowKind :=
  Schema.choose "ArrowType" ArrowKind.ofName?

namespace Schema.Rule

def shape : Rule NodeShape :=
  named NodeShape.ofName? .notChoice

def arrow : Rule ArrowKind :=
  named ArrowKind.ofName? .notChoice

def direction : Rule Direction :=
  named Direction.ofName? .notChoice

def weight : Rule FontWeight :=
  named FontWeight.ofName? .notLiteral

end Schema.Rule

/-- The fields of a node style; a field that is not given comes from another style. -/
def NodeStyle.ofFields [Coercion] (base : NodeStyle) (fields : List (String × Json)) : Checked NodeStyle :=
  NodeStyle.mk
    <$> optional fields "background_color" base.background Rule.text
    <*> optional fields "border_color" base.borderColor Rule.text
    <*> optional fields "border_width" base.borderWidth Rule.number
    <*> optional fields "text_color" base.textColor Rule.text
    <*> optional fields "font_size" base.fontSize Rule.number
    <*> optional fields "font_weight" base.fontWeight Rule.weight

def EdgeStyle.ofFields [Coercion] (base : EdgeStyle) (fields : List (String × Json)) : Checked EdgeStyle :=
  EdgeStyle.mk
    <$> optional fields "stroke_color" base.strokeColor Rule.text
    <*> optional fields "stroke_width" base.strokeWidth Rule.number
    <*> optional fields "stroke_dasharray" base.dashes (Rule.orNull Rule.text)
    <*> optional fields "animated" base.animated Rule.flag

def NodeStylePatch.ofFields [Coercion] (fields : List (String × Json)) : Checked NodeStylePatch :=
  NodeStylePatch.mk
    <$> optional fields "background_color" none (Rule.orNull Rule.text)
    <*> optional fields "border_color" none (Rule.orNull Rule.text)
    <*> optional fields "border_width" none (Rule.orNull Rule.number)
    <*> optional fields "text_color" none (Rule.orNull Rule.text)
    <*> optional fields "font_size" none (Rule.orNull Rule.number)
    <*> optional fields "font_weight" none (Rule.orNull Rule.weight)

def EdgeStylePatch.ofFields [Coercion] (fields : List (String × Json)) : Checked EdgeStylePatch :=
  EdgeStylePatch.mk
    <$> optional fields "stroke_color" none (Rule.orNull Rule.text)
    <*> optional fields "stroke_width" none (Rule.orNull Rule.number)
    <*> optional fields "stroke_dasharray" none (Rule.orNull Rule.text)
    <*> optional fields "animated" none (Rule.orNull Rule.flag)

def Position.ofFields [Coercion] (fields : List (String × Json)) : Checked Position :=
  Position.mk
    <$> optional fields "x" 0 Rule.number
    <*> optional fields "y" 0 Rule.number

namespace Schema.Rule

def nodeStyle [Coercion] : Rule NodeStyle :=
  object .notObject (NodeStyle.ofFields .standard)

def edgeStyle [Coercion] : Rule EdgeStyle :=
  object .notObject (EdgeStyle.ofFields .standard)

def nodeStylePatch [Coercion] (refusal : Cause) : Rule NodeStylePatch :=
  object refusal NodeStylePatch.ofFields

def edgeStylePatch [Coercion] (refusal : Cause) : Rule EdgeStylePatch :=
  object refusal EdgeStylePatch.ofFields

def position [Coercion] : Rule Position :=
  object .notObject Position.ofFields

end Schema.Rule

/-- The fields of a node; one without id takes a fresh one. -/
def Node.ofFields [Coercion] (freshId : String) (fields : List (String × Json)) : Checked Node :=
  Node.mk
    <$> optional fields "id" freshId Rule.text
    <*> optional fields "label" "New Node" Rule.text
    <*> optional fields "shape" .rectangle Rule.shape
    <*> optional fields "style" .standard Rule.nodeStyle
    <*> optional fields "position" none (Rule.orNull Rule.position)

/-- Moves the value of a second key to the proper one, unless that one is there. -/
def Schema.resolveAlias (second key : String) (fields : List (String × Json)) :
    List (String × Json) :=
  match Json.field? fields second, Json.field? fields key with
  | some value, none => fields ++ [(key, value)]
  | _, _ => fields

/-- The ends of an edge may be called `from` and `to`. -/
def Schema.resolveEnds (fields : List (String × Json)) : List (String × Json) :=
  resolveAlias "to" "target" (resolveAlias "from" "source" fields)

def Edge.ofFields [Coercion] (freshId : String) (given : List (String × Json)) : Checked Edge :=
  let fields := resolveEnds given
  Edge.mk
    <$> optional fields "id" freshId Rule.text
    <*> required fields "source" Rule.text
    <*> required fields "target" Rule.text
    <*> optional fields "label" none (Rule.orNull Rule.text)
    <*> optional fields "arrow_type" .arrow Rule.arrow
    <*> optional fields "style" .standard Rule.edgeStyle

/-- Ids for nodes and edges that come without one, numbered in one sequence. -/
structure IdSupply where
  next : Nat
deriving DecidableEq

namespace IdSupply

def first : IdSupply := ⟨1⟩

def text (supply : IdSupply) : String :=
  String.ofList (Text.hexDigits 8 supply.next)

def nodeId (supply : IdSupply) : String :=
  "n" ++ supply.text

def edgeId (supply : IdSupply) : String :=
  "e" ++ supply.text

def advance (supply : IdSupply) : IdSupply :=
  ⟨supply.next + 1⟩

/-- The supply after an object was read; an object with an id draws none. -/
def after (supply : IdSupply) (fields : List (String × Json)) : IdSupply :=
  if (Json.field? fields "id").isSome then supply else supply.advance

end IdSupply

inductive DocumentError
  | notObject
  /-- The nodes or edges are no collection, or one of them is no object. -/
  | notCollection
  | invalid (errors : List FieldError)
  | badChoice (bad : BadChoice)

namespace Document

def readElements {α : Type} (ofFields : IdSupply → List (String × Json) → Checked α)
    (supply : IdSupply) : List Json → Except DocumentError (List α × IdSupply)
  | [] => .ok ([], supply)
  | .object fields :: rest =>
    match ofFields supply fields with
    | .invalid errors => .error (.invalid errors)
    | .valid a => do
      let (others, supply) ← readElements ofFields (supply.after fields) rest
      .ok (a :: others, supply)
  | _ :: _ => .error .notCollection

/-- The elements of a collection. A text or an object stands for its characters or its keys, of which
none is an element that can be read. -/
def elements : Json → Except DocumentError (List Json)
  | .array items => .ok items
  | .string s => .ok (s.toList.map fun c => .string (String.singleton c))
  | .object fields => .ok (fields.map fun (key, _) => .string key)
  | _ => .error .notCollection

/-- Nodes may also be the values of an object. -/
def nodeElements : Json → Except DocumentError (List Json)
  | .object fields => .ok (fields.map (·.2))
  | value => elements value

/-- A document from its fields: nodes, edges, kind and direction are read in this order, and the first
error decides. -/
def ofFields [Coercion] (supply : IdSupply) (fields : List (String × Json)) :
    Except DocumentError (Document × IdSupply) := do
  let nodeValues ← nodeElements ((Json.field? fields "nodes").getD (.array []))
  let (nodes, supply) ← readElements (fun s => Node.ofFields s.nodeId) supply nodeValues
  let edgeValues ← elements ((Json.field? fields "edges").getD (.array []))
  let (edges, supply) ← readElements (fun s => Edge.ofFields s.edgeId) supply edgeValues
  let kind ← (match Json.field? fields "type" with
    | none => .ok .flowchart
    | some value => (DiagramKind.choose value).mapError .badChoice)
  let direction ← (match Json.field? fields "direction" with
    | none => .ok .topDown
    | some value => (Direction.choose value).mapError .badChoice)
  .ok (⟨kind, direction, .ofValues Node.id nodes, edges⟩, supply)

def ofJson [Coercion] (supply : IdSupply) : Json → Except DocumentError (Document × IdSupply)
  | .object fields => ofFields supply fields
  | _ => .error .notObject

end Document
end Flowchart
