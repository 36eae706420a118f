import Flowchart.Graph.Basic
import Flowchart.Text.Quoted

/-!
Issues: what reading a text or checking a document has to report.
-/
namespace Flowchart

inductive Severity
  | error
  | warning
  | info
deriving DecidableEq, Repr

def Severity.name : Severity → String
  | error => "error"
  | warning => "warning"
  | info => "info"

inductive SkipReason
  | malformedStyle
  | notNodeOrEdge
  | malformedEndpoint
deriving DecidableEq, Repr

def SkipReason.text : SkipReason → String
  | malformedStyle => "malformed style"
  | notNodeOrEdge => "not a node or edge"
  | malformedEndpoint => "malformed edge endpoint"

inductive EdgeEnd
  | source
  | target
deriving DecidableEq, Repr

def EdgeEnd.name : EdgeEnd → String
  | source => "source"
  | target => "target"

inductive Issue
  /-- A line of the text has no effect. -/
  | skippedLine (line : Nat) (reason : SkipReason) (text : String)
  /-- A style line names an edge position that does not exist. -/
  | positionOutOfRange (line : Nat) (position : Nat) (edgeCount : Nat)
  | noNodes
  /-- Nodes, given by label and id, that no edge touches. -/
  | orphans (nodes : List (String × String))
  | badIdentifier (node : String)
  | emptyLabel (node : String)
  | lostLabel (node : String) (shape : NodeShape)
  | arrowInLabel (node : String)
  | missingEndpoint (edge : String) (which : EdgeEnd) (node : String)
  | lostEdgeLabel (edge : String)
  | selfLoop (edge : String) (node : String)
  | duplicateEdge (edge : String) (source target : String)
deriving DecidableEq

namespace Issue

def severity : Issue → Severity
  | missingEndpoint .. => .error
  | noNodes => .info
  | orphans _ => .info
  | _ => .warning

def orphanText (node : String × String) : String :=
  node.1 ++ " (" ++ node.2 ++ ")"

def message : Issue → String
  | skippedLine _ reason text => "Skipped line (" ++ reason.text ++ "): " ++ text
  | positionOutOfRange _ position edgeCount =>
    "linkStyle index " ++ toString position ++ " is out of range (" ++ toString edgeCount ++
      " edges)"
  | noNodes => "Document has no nodes"
  | orphans nodes =>
    "Orphan nodes (no connections): " ++ ", ".intercalate (nodes.map orphanText)
  | badIdentifier node =>
    "Node id " ++ String.ofList (Text.quoted node.toList) ++
      " is not a valid identifier and will not survive the text form"
  | emptyLabel _ => "Node has an empty label"
  | lostLabel _ shape =>
    "Node label does not read back as a " ++ shape.name ++ " with the same text"
  | arrowInLabel _ => "Node label contains an arrow token and will not survive the text form"
  | missingEndpoint _ which node =>
    "Edge references non-existent " ++ which.name ++ " node: " ++ node
  | lostEdgeLabel _ =>
    "Edge label contains " ++ String.ofList [Text.singleQuote, '|', Text.singleQuote] ++
      " or a line break and will not survive the text form"
  | selfLoop .. => "Self-referencing edge (node points to itself)"
  | duplicateEdge _ source target => "Duplicate edge from " ++ source ++ " to " ++ target

def node? : Issue → Option String
  | badIdentifier node => some node
  | emptyLabel node => some node
  | lostLabel node _ => some node
  | arrowInLabel node => some node
  | selfLoop _ node => some node
  | _ => none

def edge? : Issue → Option String
  | missingEndpoint edge _ _ => some edge
  | lostEdgeLabel edge => some edge
  | selfLoop edge _ => some edge
  | duplicateEdge edge _ _ => some edge
  | _ => none

/-- The line of the text that an issue is about, counted from one. -/
def line? : Issue → Option Nat
  | skippedLine line _ _ => some line
  | positionOutOfRange line _ _ => some line
  | _ => none

end Issue

/-- How many issues there are of each severity. -/
structure IssueSummary where
  errors : Nat
  warnings : Nat
  infos : Nat
deriving DecidableEq

namespace IssueSummary

def of (issues : List Issue) : IssueSummary where
  errors := issues.countP (·.severity == .error)
  warnings := issues.countP (·.severity == .warning)
  infos := issues.countP (·.severity == .info)

def total (s : IssueSummary) : Nat :=
  s.errors + s.warnings + s.infos

def valid (s : IssueSummary) : Bool :=
  s.errors == 0

end IssueSummary
end Flowchart
