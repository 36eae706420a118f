import Flowchart.Graph.Keyed
import Flowchart.Number.Binary64

/-!
Flow diagrams as graphs: nodes with a label, a shape, a style and perhaps a place on the canvas, and
edges between them, together with the kind of the diagram and its direction.
-/
namespace Flowchart

/-- The diagram kinds that a header can name. Only the first two are flow diagrams. -/
inductive DiagramKind
  | flowchart
  | graph
  | sequence
  | classes
  | state
  | stateV2
  | entityRelation
  | gantt
  | timeline
  | pie
  | xyChart
  | quadrant
  | sankey
  | journey
  | gitGraph
  | mindmap
  | requirement
  | c4Context
  | c4Container
  | c4Component
  | c4Dynamic
  | zenUml
  | block
  | packet
  | kanban
  | architecture
deriving DecidableEq, Repr

namespace DiagramKind

def all : List DiagramKind :=
  [flowchart, graph, sequence, classes, state, stateV2, entityRelation, gantt, timeline, pie,
   xyChart, quadrant, sankey, journey, gitGraph, mindmap, requirement, c4Context, c4Container,
   c4Component, c4Dynamic, zenUml, block, packet, kanban, architecture]

def name : DiagramKind → String
  | flowchart => "flowchart"
  | graph => "graph"
  | sequence => "sequenceDiagram"
  | classes => "classDiagram"
  | state => "stateDiagram"
  | stateV2 => "stateDiagram-v2"
  | entityRelation => "erDiagram"
  | gantt => "gantt"
  | timeline => "timeline"
  | pie => "pie"
  | xyChart => "xychart-beta"
  | quadrant => "quadrantChart"
  | sankey => "sankey-beta"
  | journey => "journey"
  | gitGraph => "gitGraph"
  | mindmap => "mindmap"
  | requirement => "requirementDiagram"
  | c4Context => "C4Context"
  | c4Container => "C4Container"
  | c4Component => "C4Component"
  | c4Dynamic => "C4Dynamic"
  | zenUml => "zenuml"
  | block => "block-beta"
  | packet => "packet-beta"
  | kanban => "kanban"
  | architecture => "architecture-beta"

def ofName? (s : String) : Option DiagramKind :=
  all.find? (·.name == s)

def isFlow (kind : DiagramKind) : Bool :=
  kind == flowchart || kind == graph

end DiagramKind

/-- Where a diagram flows: `TB` and `TD` both mean downwards. -/
inductive Direction
  | topBottom
  | topDown
  | bottomTop
  | rightLeft
  | leftRight
deriving DecidableEq, Repr

namespace Direction

def all : List Direction :=
  [topBottom, topDown, bottomTop, rightLeft, leftRight]

def name : Direction → String
  | topBottom => "TB"
  | topDown => "TD"
  | bottomTop => "BT"
  | rightLeft => "RL"
  | leftRight => "LR"

def ofName? (s : String) : Option Direction :=
  all.find? (·.name == s)

end Direction

inductive NodeShape
  | rectangle
  | rounded
  | stadium
  | diamond
  | hexagon
  | parallelogram
  | cylinder
  | circle
  | subroutine
  | asymmetric
deriving DecidableEq, Repr

namespace NodeShape

def all : List NodeShape :=
  [rectangle, rounded, stadium, diamond, hexagon, parallelogram, cylinder, circle, subroutine,
   asymmetric]

def name : NodeShape → String
  | rectangle => "rectangle"
  | rounded => "rounded"
  | stadium => "stadium"
  | diamond => "diamond"
  | hexagon => "hexagon"
  | parallelogram => "parallelogram"
  | cylinder => "cylinder"
  | circle => "circle"
  | subroutine => "subroutine"
  | asymmetric => "asymmetric"

def ofName? (s : String) : Option NodeShape :=
  all.find? (·.name == s)

end NodeShape

inductive ArrowKind
  | arrow
  | plain
  | dotted
  | thick
  | circle
  | cross
deriving DecidableEq, Repr

namespace ArrowKind

def all : List ArrowKind :=
  [arrow, plain, dotted, thick, circle, cross]

def name : ArrowKind → String
  | arrow => "arrow"
  | plain => "open"
  | dotted => "dotted"
  | thick => "thick"
  | circle => "circle"
  | cross => "cross"

def ofName? (s : String) : Option ArrowKind :=
  all.find? (·.name == s)

end ArrowKind

inductive FontWeight
  | normal
  | bold
deriving DecidableEq, Repr

namespace FontWeight

def name : FontWeight → String
  | normal => "normal"
  | bold => "bold"

def ofName? (s : String) : Option FontWeight :=
  [normal, bold].find? (·.name == s)

end FontWeight

structure NodeStyle where
  background : String
  borderColor : String
  borderWidth : Binary64
  textColor : String
  fontSize : Binary64
  fontWeight : FontWeight
deriving DecidableEq

/-- The style of a node that nobody has styled. -/
def NodeStyle.standard : NodeStyle where
  background := "#2d2d2d"
  borderColor := "#d4ff00"
  borderWidth := 2
  textColor := "#ffffff"
  fontSize := 14
  fontWeight := .normal

structure EdgeStyle where
  strokeColor : String
  strokeWidth : Binary64
  dashes : Option String
  animated : Bool
deriving DecidableEq

def EdgeStyle.standard : EdgeStyle where
  strokeColor := "#a0a0a0"
  strokeWidth := 2
  dashes := none
  animated := false

/-- Changes to a node style: the fields that are given. -/
structure NodeStylePatch where
  background : Option String := none
  borderColor : Option String := none
  borderWidth : Option Binary64 := none
  textColor : Option String := none
  fontSize : Option Binary64 := none
  fontWeight : Option FontWeight := none
deriving DecidableEq

structure EdgeStylePatch where
  strokeColor : Option String := none
  strokeWidth : Option Binary64 := none
  dashes : Option String := none
  animated : Option Bool := none
deriving DecidableEq

def NodeStylePatch.isEmpty (patch : NodeStylePatch) : Bool :=
  patch == {}

def EdgeStylePatch.isEmpty (patch : EdgeStylePatch) : Bool :=
  patch == {}

/-- The style with the given fields of a patch put over it. -/
def NodeStyle.patched (style : NodeStyle) (patch : NodeStylePatch) : NodeStyle where
  background := patch.background.getD style.background
  borderColor := patch.borderColor.getD style.borderColor
  borderWidth := patch.borderWidth.getD style.borderWidth
  textColor := patch.textColor.getD style.textColor
  fontSize := patch.fontSize.getD style.fontSize
  fontWeight := patch.fontWeight.getD style.fontWeight

def EdgeStyle.patched (style : EdgeStyle) (patch : EdgeStylePatch) : EdgeStyle where
  strokeColor := patch.strokeColor.getD style.strokeColor
  strokeWidth := patch.strokeWidth.getD style.strokeWidth
  dashes := patch.dashes.or style.dashes
  animated := patch.animated.getD style.animated

structure Position where
  x : Binary64
  y : Binary64
deriving DecidableEq

def Position.origin : Position := ⟨0, 0⟩

structure Node where
  id : String
  label : String
  shape : NodeShape
  style : NodeStyle
  position : Option Position
deriving DecidableEq

/-- The stand-in for a node that is named before it is described. -/
def Node.stub (id : String) : Node where
  id := id
  label := id
  shape := .rectangle
  style := .standard
  position := none

structure Edge where
  id : String
  source : String
  target : String
  label : Option String
  arrow : ArrowKind
  style : EdgeStyle
deriving DecidableEq

structure Document where
  kind : DiagramKind
  direction : Direction
  nodes : Keyed Node
  edges : List Edge

namespace Document

def empty : Document where
  kind := .flowchart
  direction := .topDown
  nodes := .empty
  edges := []

def node? (d : Document) (id : String) : Option Node :=
  d.nodes.find? id

def edge? (d : Document) (id : String) : Option Edge :=
  d.edges.find? (·.id == id)

/-- Every node stands under its own id. -/
def KeyedById (d : Document) : Prop :=
  ∀ entry ∈ d.nodes.entries, entry.1 = entry.2.id

end Document
end Flowchart
