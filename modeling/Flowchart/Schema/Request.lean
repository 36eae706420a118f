import Flowchart.Schema.Graph

/-!
The bodies of requests to the service.
-/
namespace Flowchart

open Schema

inductive ExportFormat
  | png
  | svg
  | pdf
deriving DecidableEq, Repr

namespace ExportFormat

def name : ExportFormat → String
  | png => "png"
  | svg => "svg"
  | pdf => "pdf"

def mediaType : ExportFormat → String
  | png => "image/png"
  | svg => "image/svg+xml"
  | pdf => "application/pdf"

def ofName? (s : String) : Option ExportFormat :=
  [png, svg, pdf].find? (·.name == s)

def choose : Json → Except BadChoice ExportFormat :=
  Schema.choose "ExportFormat" ofName?

end ExportFormat

namespace Request

structure SetText where
  text : String

structure AddNode where
  label : String
  shape : NodeShape
  x : Option Binary64
  y : Option Binary64
  style : Option NodeStylePatch

structure UpdateNode where
  label : Option String
  shape : Option NodeShape
  style : Option NodeStylePatch
  x : Option Binary64
  y : Option Binary64

structure AddEdge where
  source : String
  target : String
  label : Option String
  arrow : ArrowKind

structure UpdateEdge where
  label : Option String
  arrow : Option ArrowKind
  style : Option EdgeStylePatch

structure SetDirection where
  direction : Direction

structure Select where
  nodes : List String
  edges : List String

/-- Puts the focus of label editing on a node, or takes it away. -/
structure EditLabel where
  node : Option String

/-- Exports the given text, or the current one. -/
structure Export where
  format : ExportFormat
  code : Option String

/-! Each body is read from an object; the parameter says what any other value is called. -/

def SetText.rule (refusal : Cause) : Rule SetText :=
  Rule.object refusal fun fields => SetText.mk <$> required fields "text" Rule.text

def AddNode.rule [Coercion] (refusal : Cause) : Rule AddNode :=
  Rule.object refusal fun fields =>
    AddNode.mk
      <$> optional fields "label" "New Node" Rule.text
      <*> optional fields "shape" .rectangle Rule.shape
      <*> optional fields "x" none (Rule.orNull Rule.number)
      <*> optional fields "y" none (Rule.orNull Rule.number)
      <*> optional fields "style" none (Rule.orNull (Rule.nodeStylePatch refusal))

def UpdateNode.rule [Coercion] (refusal : Cause) : Rule UpdateNode :=
  Rule.object refusal fun fields =>
    UpdateNode.mk
      <$> optional fields "label" none (Rule.orNull Rule.text)
      <*> optional fields "shape" none (Rule.orNull Rule.shape)
      <*> optional fields "style" none (Rule.orNull (Rule.nodeStylePatch refusal))
      <*> optional fields "x" none (Rule.orNull Rule.number)
      <*> optional fields "y" none (Rule.orNull Rule.number)

def AddEdge.rule (refusal : Cause) : Rule AddEdge :=
  Rule.object refusal fun given =>
    let fields := resolveEnds given
    AddEdge.mk
      <$> optional fields "source" "" Rule.text
      <*> optional fields "target" "" Rule.text
      <*> optional fields "label" none (Rule.orNull Rule.text)
      <*> optional fields "arrow_type" .arrow Rule.arrow

def UpdateEdge.rule [Coercion] (refusal : Cause) : Rule UpdateEdge :=
  Rule.object refusal fun fields =>
    UpdateEdge.mk
      <$> optional fields "label" none (Rule.orNull Rule.text)
      <*> optional fields "arrow_type" none (Rule.orNull Rule.arrow)
      <*> optional fields "style" none (Rule.orNull (Rule.edgeStylePatch refusal))

def SetDirection.rule (refusal : Cause) : Rule SetDirection :=
  Rule.object refusal fun fields =>
    SetDirection.mk <$> required fields "direction" Rule.direction

def Select.rule (refusal : Cause) : Rule Select :=
  Rule.object refusal fun fields =>
    Select.mk
      <$> optional fields "node_ids" [] (Rule.list Rule.text)
      <*> optional fields "edge_ids" [] (Rule.list Rule.text)

def EditLabel.rule (refusal : Cause) : Rule EditLabel :=
  Rule.object refusal fun fields =>
    EditLabel.mk <$> optional fields "node_id" none (Rule.orNull Rule.text)

def Export.rule (refusal : Cause) : Rule Export :=
  Rule.object refusal fun fields =>
    Export.mk
      <$> optional fields "format" .png (Rule.named ExportFormat.ofName? .notChoice)
      <*> optional fields "code" none (Rule.orNull Rule.text)

end Request
end Flowchart
