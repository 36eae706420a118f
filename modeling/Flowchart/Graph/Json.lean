import Flowchart.Diagram.Issue
import Flowchart.Diagram.Reader
import Flowchart.Json.Basic

/-!
The JSON form of documents, issues and readings.
-/
namespace Flowchart

namespace Json

def ofString? (s : Option String) : Json :=
  .ofOption .string s

end Json

def NodeStyle.toJson (style : NodeStyle) : Json :=
  .object
    [("background_color", .string style.background),
     ("border_color", .string style.borderColor),
     ("border_width", .ofReal style.borderWidth),
     ("text_color", .string style.textColor),
     ("font_size", .ofReal style.fontSize),
     ("font_weight", .string style.fontWeight.name)]

def EdgeStyle.toJson (style : EdgeStyle) : Json :=
  .object
    [("stroke_color", .string style.strokeColor),
     ("stroke_width", .ofReal style.strokeWidth),
     ("stroke_dasharray", .ofString? style.dashes),
     ("animated", .bool style.animated)]

def Position.toJson (position : Position) : Json :=
  .object [("x", .ofReal position.x), ("y", .ofReal position.y)]

def Node.toJson (node : Node) : Json :=
  .object
    [("id", .string node.id),
     ("label", .string node.label),
     ("shape", .string node.shape.name),
     ("style", node.style.toJson),
     ("position", .ofOption Position.toJson node.position)]

def Edge.toJson (edge : Edge) : Json :=
  .object
    [("id", .string edge.id),
     ("source", .string edge.source),
     ("target", .string edge.target),
     ("label", .ofString? edge.label),
     ("arrow_type", .string edge.arrow.name),
     ("style", edge.style.toJson)]

def Document.toJson (d : Document) : Json :=
  .object
    [("type", .string d.kind.name),
     ("direction", .string d.direction.name),
     ("nodes", .array (d.nodes.values.map Node.toJson)),
     ("edges", .array (d.edges.map Edge.toJson))]

namespace Issue

/-- A field for a text that is there and not empty. -/
def textField (key : String) : Option String → List (String × Json)
  | none => []
  | some s => if s.isEmpty then [] else [(key, .string s)]

def toJson (issue : Issue) : Json :=
  .object <|
    [("type", .string issue.severity.name), ("message", .string issue.message)] ++
      textField "node_id" issue.node? ++ textField "edge_id" issue.edge? ++
      (match issue.line? with
        | none => []
        | some line => [("line", .ofNat line)])

end Issue

def IssueSummary.toJson (s : IssueSummary) : Json :=
  .object
    [("total", .ofNat s.total),
     ("errors", .ofNat s.errors),
     ("warnings", .ofNat s.warnings),
     ("info", .ofNat s.infos),
     ("valid", .bool s.valid)]

namespace Diagram

def ReadError.name : ReadError → String
  | empty => "empty"
  | unsupported _ => "unsupported_type"

def ReadError.toJson (e : ReadError) : Json :=
  .object
    [("success", .bool false),
     ("diagnostics", .array []),
     ("error", .string e.name),
     ("message", .string e.message)]

def Reading.toJson (reading : Reading) : Json :=
  .object
    [("success", .bool true),
     ("diagnostics", .array (reading.issues.map Issue.toJson)),
     ("document", reading.document.toJson)]

def Outcome.toJson : Outcome → Json
  | .error e => e.toJson
  | .ok reading => reading.toJson

end Diagram
end Flowchart
