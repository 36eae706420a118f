import Flowchart.Grammar.Arrow
import Flowchart.Grammar.Shape
import Flowchart.Json.Writer
import Flowchart.Text.Line

/-!
Writing a diagram text: the header, then the edges in the order of the document, then the nodes that
no edge mentions, then the styles that differ from the standard ones. Places have no text form.
-/
namespace Flowchart

/-- The text of a number without superfluous fraction. -/
def Binary64.plainText (x : Binary64) : List Char :=
  match x.toInt? with
  | some n => Json.intText n
  | none => x.toText

namespace Diagram

def sizeText (x : Binary64) : List Char :=
  x.plainText ++ ['p', 'x']

/-- A declaration for a value that differs from the standard one. -/
def declare {α : Type} [DecidableEq α] (name : String) (standard : α) (text : α → List Char)
    (value : α) : List (List Char) :=
  if value = standard then [] else [name.toList ++ ':' :: text value]

def flagText (b : Bool) : List Char :=
  if b then "true".toList else "false".toList

def nodeDeclarations (style : NodeStyle) : List (List Char) :=
  declare "fill" NodeStyle.standard.background String.toList style.background ++
  declare "stroke" NodeStyle.standard.borderColor String.toList style.borderColor ++
  declare "color" NodeStyle.standard.textColor String.toList style.textColor ++
  declare "stroke-width" NodeStyle.standard.borderWidth sizeText style.borderWidth ++
  declare "font-size" NodeStyle.standard.fontSize sizeText style.fontSize ++
  declare "font-weight" NodeStyle.standard.fontWeight (·.name.toList) style.fontWeight

def edgeDeclarations (style : EdgeStyle) : List (List Char) :=
  declare "stroke" EdgeStyle.standard.strokeColor String.toList style.strokeColor ++
  declare "stroke-width" EdgeStyle.standard.strokeWidth sizeText style.strokeWidth ++
  (match style.dashes with
    | none => []
    | some dashes => ["stroke-dasharray:".toList ++ dashes.toList]) ++
  declare "animated" EdgeStyle.standard.animated flagText style.animated

def nodeStyleText (style : NodeStyle) : List Char :=
  Text.joinWith [','] (nodeDeclarations style)

def edgeStyleText (style : EdgeStyle) : List Char :=
  Text.joinWith [','] (edgeDeclarations style)

def indent : List Char := [' ', ' ', ' ', ' ']

def nodeText (node : Node) : List Char :=
  node.id.toList ++ node.shape.wrap node.label.toList

def arrowOf (edge : Edge) : Arrow :=
  ⟨edge.arrow, edge.label.map String.toList⟩

/-- An edge whose ends both exist, together with its ends. -/
structure Link where
  edge : Edge
  source : Node
  target : Node

def links (d : Document) : List Link :=
  d.edges.filterMap fun edge => do
    let source ← d.node? edge.source
    let target ← d.node? edge.target
    some ⟨edge, source, target⟩

def linkText (link : Link) : List Char :=
  indent ++ nodeText link.source ++ ' ' :: (arrowOf link.edge).toText ++ ' ' :: nodeText link.target

/-- The nodes that no link mentions. -/
def loneNodes (d : Document) : List Node :=
  let mentioned := (links d).flatMap fun link => [link.source.id, link.target.id]
  d.nodes.values.filter fun node => !mentioned.contains node.id

def headerText (d : Document) : List Char :=
  d.kind.name.toList ++ ' ' :: d.direction.name.toList

def nodeStyleLine? (node : Node) : Option (List Char) :=
  match nodeStyleText node.style with
  | [] => none
  | text => some (indent ++ "style ".toList ++ node.id.toList ++ ' ' :: text)

def edgeStyleLine? (position : Nat) (link : Link) : Option (List Char) :=
  match edgeStyleText link.edge.style with
  | [] => none
  | text => some (indent ++ "linkStyle ".toList ++ Nat.toDigits 10 position ++ ' ' :: text)

def styleLines (d : Document) : List (List Char) :=
  d.nodes.values.filterMap nodeStyleLine? ++
    (links d).zipIdx.filterMap fun (link, position) => edgeStyleLine? position link

/-- All lines of the text of a document; an empty one stands before the styles. -/
def textLines (d : Document) : List (List Char) :=
  headerText d :: (links d).map linkText ++ (loneNodes d).map (indent ++ nodeText ·) ++
    match styleLines d with
    | [] => []
    | styles => [] :: styles

def writeChars (d : Document) : List Char :=
  Text.joinWith ['\n'] (textLines d)

def write (d : Document) : String :=
  String.ofList (writeChars d)

end Diagram
end Flowchart
