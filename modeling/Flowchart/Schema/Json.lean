import Flowchart.Graph.Json
import Flowchart.Schema.Request

/-!
The JSON form of patches and of the bodies of requests. Null stands for a part that is not given.
-/
namespace Flowchart

def NodeStylePatch.toJson (p : NodeStylePatch) : Json :=
  .object
    [("background_color", .ofString? p.background),
     ("border_color", .ofString? p.borderColor),
     ("border_width", .ofOption .ofReal p.borderWidth),
     ("text_color", .ofString? p.textColor),
     ("font_size", .ofOption .ofReal p.fontSize),
     ("font_weight", .ofOption (fun w => .string (FontWeight.name w)) p.fontWeight)]

def EdgeStylePatch.toJson (p : EdgeStylePatch) : Json :=
  .object
    [("stroke_color", .ofString? p.strokeColor),
     ("stroke_width", .ofOption .ofReal p.strokeWidth),
     ("stroke_dasharray", .ofString? p.dashes),
     ("animated", .ofOption .bool p.animated)]

namespace Request

def SetText.toJson (r : SetText) : Json :=
  .object [("text", .string r.text)]

def AddNode.toJson (r : AddNode) : Json :=
  .object
    [("label", .string r.label),
     ("shape", .string r.shape.name),
     ("x", .ofOption .ofReal r.x),
     ("y", .ofOption .ofReal r.y),
     ("style", .ofOption NodeStylePatch.toJson r.style)]

def UpdateNode.toJson (r : UpdateNode) : Json :=
  .object
    [("label", .ofString? r.label),
     ("shape", .ofOption (fun s => .string (NodeShape.name s)) r.shape),
     ("x", .ofOption .ofReal r.x),
     ("y", .ofOption .ofReal r.y),
     ("style", .ofOption NodeStylePatch.toJson r.style)]

def AddEdge.toJson (r : AddEdge) : Json :=
  .object
    [("source", .string r.source),
     ("target", .string r.target),
     ("label", .ofString? r.label),
     ("arrow_type", .string r.arrow.name)]

def UpdateEdge.toJson (r : UpdateEdge) : Json :=
  .object
    [("label", .ofString? r.label),
     ("arrow_type", .ofOption (fun a => .string (ArrowKind.name a)) r.arrow),
     ("style", .ofOption EdgeStylePatch.toJson r.style)]

def SetDirection.toJson (r : SetDirection) : Json :=
  .object [("direction", .string r.direction.name)]

def Select.toJson (r : Select) : Json :=
  .object
    [("node_ids", .array (r.nodes.map .string)), ("edge_ids", .array (r.edges.map .string))]

def EditLabel.toJson (r : EditLabel) : Json :=
  .object [("node_id", .ofString? r.node)]

def Export.toJson (r : Export) : Json :=
  .object [("format", .string r.format.name), ("code", .ofString? r.code)]

end Request
end Flowchart
