import Flowchart.Diagram.Statement
import Flowchart.Layout.Places

/-!
Reading a diagram text. Only a text without a significant line and a header that names no flow
diagram are errors; every other line that is not understood is skipped and reported. A position that is
no number, or one with too many digits, breaks the reading off.
-/
namespace Flowchart.Diagram

inductive ReadError
  | empty
  | unsupported (named : String)
deriving DecidableEq

def ReadError.message : ReadError → String
  | empty => "Empty code"
  | unsupported named =>
    "Unsupported diagram type " ++ String.singleton Text.singleQuote ++ named ++
      String.singleton Text.singleQuote ++ ". Expected flowchart or graph."

/-- A document read from a text, with what there is to report. -/
structure Reading where
  document : Document
  issues : List Issue

/-- What reading a text gives, unless it is broken off. -/
abbrev Outcome := Except ReadError Reading

/-- What the lines read so far amount to. Styles wait until all edges are known. -/
structure Draft where
  nodes : Keyed Node
  edges : List Edge
  nodeStyles : List NodeStyleLine
  edgeStyles : List (Nat × EdgeStyleLine)
  issues : List Issue

namespace Draft

def empty : Draft where
  nodes := .empty
  edges := []
  nodeStyles := []
  edgeStyles := []
  issues := []

/-- The nodes with a stand-in for an id that is not among them. -/
def ensure (nodes : Keyed Node) (id : String) : Keyed Node :=
  if nodes.contains id then nodes else nodes.insert id (.stub id)

/-- The nodes with a reference taken in: a description replaces an earlier one. -/
def refer (nodes : Keyed Node) (ref : NodeRef) : Keyed Node :=
  let id := String.ofList ref.id
  let nodes := ensure nodes id
  match ref.described with
  | none => nodes
  | some (shape, label) =>
    nodes.modify id fun node => { node with label := String.ofList label, shape := shape }

def edgeId (position : Nat) (source target : String) : String :=
  "e" ++ toString position ++ "_" ++ source ++ "_" ++ target

def newEdge (position : Nat) (source : NodeRef) (arrow : Arrow) (target : NodeRef) : Edge where
  id := edgeId position (String.ofList source.id) (String.ofList target.id)
  source := String.ofList source.id
  target := String.ofList target.id
  label := arrow.label.map String.ofList
  arrow := arrow.kind
  style := .standard

/-- Takes in the statement of one line. Lines that break the reading off do not get here. -/
def add (draft : Draft) (line : NumberedLine) : Draft :=
  match Statement.ofLine line.content with
  | .structural => draft
  | .nodeStyle style => { draft with nodeStyles := draft.nodeStyles ++ [style] }
  | .edgeStyle style => { draft with edgeStyles := draft.edgeStyles ++ [(line.number, style)] }
  | .node ref => { draft with nodes := refer draft.nodes ref }
  | .edge source arrow target =>
    { draft with
      nodes := refer (refer draft.nodes source) target
      edges := draft.edges ++ [newEdge draft.edges.length source arrow target] }
  | .skipped reason =>
    { draft with
      issues := draft.issues ++ [.skippedLine line.number reason (String.ofList line.content)] }
  | .broken _ => draft

/-- The nodes with one style line applied; a node that only style lines name comes into being. -/
def styleNode (nodes : Keyed Node) (style : NodeStyleLine) : Keyed Node :=
  let id := String.ofList style.id
  (ensure nodes id).modify id fun node =>
    { node with style := node.style.patched (Declaration.nodePatch style.declarations) }

def styleEdgeAt (edges : List Edge) (patch : EdgeStylePatch) (position : Nat) : List Edge :=
  edges.modify position fun edge => { edge with style := edge.style.patched patch }

/-- The positions that a style line names, out of a number of edges. -/
def positionsOf (style : EdgeStyleLine) (edgeCount : Nat) : List Nat :=
  style.positions.getD (List.range edgeCount)

def styleEdges (edges : List Edge) (style : EdgeStyleLine) : List Edge :=
  (positionsOf style edges.length).foldl
    (styleEdgeAt · (Declaration.edgePatch style.declarations) ·) edges

def outOfRange (edgeCount : Nat) (line : Nat × EdgeStyleLine) : List Issue :=
  ((positionsOf line.2 edgeCount).filter (edgeCount ≤ ·)).map fun position =>
    .positionOutOfRange line.1 position edgeCount

/-- The document of a draft: all styles applied in the order of their lines. -/
def finish (draft : Draft) (kind : DiagramKind) (direction : Direction) : Reading where
  document :=
    { kind := kind
      direction := direction
      nodes := draft.nodeStyles.foldl styleNode draft.nodes
      edges := (draft.edgeStyles.map (·.2)).foldl styleEdges draft.edges }
  issues := draft.issues ++ draft.edgeStyles.flatMap (outOfRange draft.edges.length)

end Draft

/-- The lines below the header; a line that consists of semicolons says nothing. -/
def body (lines : List NumberedLine) : List NumberedLine :=
  lines.filter (!·.content.isEmpty)

def error? (lines : List NumberedLine) : Option PositionError :=
  lines.findSome? fun line => (Statement.ofLine line.content).error?

def readBody (kind : DiagramKind) (direction : Direction) (lines : List NumberedLine) :
    Except PositionError Reading :=
  match error? lines with
  | some e => .error e
  | none => .ok ((lines.foldl Draft.add .empty).finish kind direction)

/-- Reads the characters of a text into a document without places. -/
def readChars (text : List Char) : Except PositionError Outcome :=
  match NumberedLine.ofText text with
  | [] => .ok (.error .empty)
  | header :: rest =>
    match Header.kind? header.content with
    | none => .ok (.error (.unsupported (String.ofList header.content)))
    | some kind =>
      if kind.isFlow then
        (readBody kind (Header.direction header.content) (body rest)).map .ok
      else .ok (.error (.unsupported kind.name))

def read (text : String) : Except PositionError Outcome :=
  readChars text.toList

def Reading.arranged (reading : Reading) : Reading :=
  { reading with document := reading.document.arranged reading.document.direction }

/-- Reads a text and gives every node its place. -/
def readArranged (text : String) : Except PositionError Outcome :=
  (read text).map fun outcome => outcome.map Reading.arranged

end Flowchart.Diagram
