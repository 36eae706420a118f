import Flowchart.Client.Arguments
import Flowchart.Graph.Basic
import Flowchart.Schema.Request

/-!
The commands of the command line.
-/
namespace Flowchart.Client

inductive Command
  /-- A text as a document in JSON. -/
  | parse (file : String) (isArranged : Bool)
  /-- A text in its normal form. -/
  | format (file : String)
  | validate (file : String)
  /-- A document in JSON with its nodes arranged. -/
  | layout (file : String) (direction : Option Direction)
  /-- A document in JSON as a text. -/
  | render (file : String)
  | getText (isRaw : Bool)
  | setText (file : String)
  | flush
  | getGraph
  | addNode (label : Entry String) (shape : Entry NodeShape) (x y : Option (Entry Binary64))
  | updateNode (id : Entry String) (label : Option (Entry String)) (shape : Option (Entry NodeShape))
      (x y : Option (Entry Binary64)) (fill stroke textColor : Option (Entry String))
  | deleteNode (id : Entry String)
  | addEdge (source target : Entry String) (label : Option (Entry String)) (kind : Entry ArrowKind)
  | updateEdge (id : Entry String) (label : Option (Entry String)) (kind : Option (Entry ArrowKind))
      (stroke : Option (Entry String))
  | deleteEdge (id : Entry String)
  | setDirection (direction : Direction)
  | validateRemote
  | exportText (format : Entry ExportFormat) (output : Entry String)

namespace Command

def shapeChoice : ValueKind := .choice (NodeShape.all.map NodeShape.name)

def arrowChoice : ValueKind := .choice (ArrowKind.all.map ArrowKind.name)

def directionChoice : ValueKind := .choice (Direction.all.map Direction.name)

def formatChoice : ValueKind := .choice ["png", "svg", "pdf"]

def option (name : String) (kind : ValueKind) : OptionSpec := ⟨name, some kind, false⟩

def needed (name : String) : OptionSpec := ⟨name, some .text, true⟩

def flag (name : String) : OptionSpec := ⟨name, none, false⟩

def specs : List CommandSpec :=
  [⟨"parse", some .text, [flag "no-layout"]⟩,
   ⟨"format", some .text, []⟩,
   ⟨"validate", some .text, []⟩,
   ⟨"layout", some .text, [option "direction" directionChoice]⟩,
   ⟨"render", some .text, []⟩,
   ⟨"get-text", none, [flag "raw"]⟩,
   ⟨"set-text", some .text, []⟩,
   ⟨"flush", none, []⟩,
   ⟨"get-graph", none, []⟩,
   ⟨"add-node", none,
    [needed "label", option "shape" shapeChoice, option "x" .number, option "y" .number]⟩,
   ⟨"update-node", none,
    [needed "node-id", option "label" .text, option "shape" shapeChoice, option "x" .number,
     option "y" .number, option "fill" .text, option "stroke" .text, option "text-color" .text]⟩,
   ⟨"delete-node", none, [needed "node-id"]⟩,
   ⟨"add-edge", none,
    [needed "source", needed "target", option "label" .text, option "arrow-type" arrowChoice]⟩,
   ⟨"update-edge", none,
    [needed "edge-id", option "label" .text, option "arrow-type" arrowChoice,
     option "stroke" .text]⟩,
   ⟨"delete-edge", none, [needed "edge-id"]⟩,
   ⟨"set-direction", some directionChoice, []⟩,
   ⟨"validate-remote", none, []⟩,
   ⟨"export", none, [option "format" formatChoice, needed "output"]⟩]

def ofArguments? (name : String) (a : Arguments) : Option Command :=
  let shape? := a.read? NodeShape.ofName? "shape"
  let arrow? := a.read? ArrowKind.ofName? "arrow-type"
  match name with
  | "parse" => do some (parse (← a.plain) !(a.isSet "no-layout"))
  | "format" => a.plain.map format
  | "validate" => a.plain.map validate
  | "layout" => do
    some (layout (← a.plain) ((a.read? Direction.ofName? "direction").bind Entry.toOption))
  | "render" => a.plain.map render
  | "get-text" => some (getText (a.isSet "raw"))
  | "set-text" => a.plain.map setText
  | "flush" => some flush
  | "get-graph" => some getGraph
  | "add-node" => do
    some (addNode (← a.entry? "label") (shape?.getD (.value .rectangle)) (a.number? "x")
      (a.number? "y"))
  | "update-node" => do
    some (updateNode (← a.entry? "node-id") (a.entry? "label") shape? (a.number? "x")
      (a.number? "y") (a.entry? "fill") (a.entry? "stroke") (a.entry? "text-color"))
  | "delete-node" => (a.entry? "node-id").map deleteNode
  | "add-edge" => do
    some (addEdge (← a.entry? "source") (← a.entry? "target") (a.entry? "label")
      (arrow?.getD (.value .arrow)))
  | "update-edge" => do
    some (updateEdge (← a.entry? "edge-id") (a.entry? "label") arrow? (a.entry? "stroke"))
  | "delete-edge" => (a.entry? "edge-id").map deleteEdge
  | "set-direction" => (a.plain.bind Direction.ofName?).map setDirection
  | "validate-remote" => some validateRemote
  | "export" => do
    some (exportText ((a.read? ExportFormat.ofName? "format").getD (.value .png))
      (← a.entry? "output"))
  | _ => none

def ofLine (words : List String) : Except ArgumentError Command :=
  match CommandSpec.readLine specs false words with
  | .error e => .error e
  | .ok (name, arguments) =>
    match ofArguments? name arguments with
    | some command => .ok command
    | none => .error .misuse

end Command
end Flowchart.Client
