import Flowchart.Diagram.Issue
import Flowchart.Grammar.Arrow
import Flowchart.Grammar.Identifier
import Flowchart.Grammar.Shape

/-!
Checking a document: edges that lead nowhere are errors; ids and labels that the text form cannot
carry, loops and doubled edges are warnings; nodes without edges are worth a note.
-/
namespace Flowchart.Document

/-- An identifier, perhaps with a line feed behind it. -/
def hasPlainId (id : List Char) : Bool :=
  Identifier.isIdentifier id || (id.getLast? == some '\n' && Identifier.isIdentifier id.dropLast)

def orphanIssues (nodes : List Node) (edges : List Edge) : List Issue :=
  let connected := edges.flatMap fun edge => [edge.source, edge.target]
  match nodes.filter fun node => !connected.contains node.id with
  | [] => []
  | orphans => [.orphans (orphans.map fun node => (node.label, node.id))]

def nodeIssues (node : Node) : List Issue :=
  let label := node.label.toList
  (if hasPlainId node.id.toList then [] else [.badIdentifier node.id]) ++
  (if label.isEmpty then [.emptyLabel node.id]
    else if node.shape.keeps label then [] else [.lostLabel node.id node.shape]) ++
  (if !label.isEmpty && (ArrowMatch.find? label).isSome then [.arrowInLabel node.id] else [])

def isLostEdgeLabel (label : Option String) : Bool :=
  label.any fun s => s.toList.contains '|' || s.toList.contains '\n'

def edgeIssues (ids : List String) (edge : Edge) : List Issue :=
  (if ids.contains edge.source then [] else [.missingEndpoint edge.id .source edge.source]) ++
  (if ids.contains edge.target then [] else [.missingEndpoint edge.id .target edge.target]) ++
  (if isLostEdgeLabel edge.label then [.lostEdgeLabel edge.id] else []) ++
  (if edge.source = edge.target then [.selfLoop edge.id edge.source] else [])

/-- The edges that run between the same ends as an earlier one. -/
def duplicateIssues (seen : List (String × String)) : List Edge → List Issue
  | [] => []
  | edge :: rest =>
    (if seen.contains (edge.source, edge.target) then
      [.duplicateEdge edge.id edge.source edge.target] else []) ++
      duplicateIssues ((edge.source, edge.target) :: seen) rest

/-- All issues of a document, those of nodes before those of edges. -/
def issues (d : Document) : List Issue :=
  let nodes := d.nodes.values
  if nodes.isEmpty then [.noNodes]
  else
    orphanIssues nodes d.edges ++ nodes.flatMap nodeIssues ++
      d.edges.flatMap (edgeIssues d.nodes.keys) ++ duplicateIssues [] d.edges

end Flowchart.Document
