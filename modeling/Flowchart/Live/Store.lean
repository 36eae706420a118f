import Flowchart.Layout.Places
import Flowchart.Schema.Graph

/-!
The live graph: a document with indexes of its edges, a selection, and the focus of label editing.
Every operation says what kind of change it made, if any.
-/
namespace Flowchart.Live

open Schema

inductive Change
  | nodes
  | edges
  | position
  | direction
  | replaced
  | selection
deriving DecidableEq, Repr

namespace Change

def all : List Change :=
  [nodes, edges, position, direction, replaced, selection]

def name : Change → String
  | nodes => "nodes"
  | edges => "edges"
  | position => "position"
  | direction => "direction"
  | replaced => "replaced"
  | selection => "selection"

def ofName? (s : String) : Option Change :=
  all.find? (·.name == s)

end Change

inductive StoreError
  | badChoice (bad : BadChoice)
  | invalidStyle (errors : List FieldError)
  | unspecifiedEnd
  | sourceNotFound (id : String)
  | targetNotFound (id : String)
deriving DecidableEq

structure Store where
  document : Document
  /-- The last edge with each id. -/
  edgeIndex : Keyed Edge
  /-- The ids of the edges at each node, without repetitions. -/
  edgesByNode : Keyed (List String)
  selectedNodes : List String
  selectedEdges : List String
  /-- The node whose label is being edited. -/
  focus : Option String

/-- The outcome of an operation: the store after it, the change to announce, and whether what it was
about was there. -/
structure Effect where
  store : Store
  change : Option Change
  result : Except StoreError Bool

namespace Store

/-- The ids at a node with one id more. -/
def attach (index : Keyed (List String)) (node edge : String) : Keyed (List String) :=
  let ids := (index.find? node).getD []
  index.insert node (if ids.contains edge then ids else ids ++ [edge])

/-- The ids at a node with one id less; nothing is noted for a node that has no entry. -/
def detach (index : Keyed (List String)) (node edge : String) : Keyed (List String) :=
  index.modify node fun ids => ids.filter (· != edge)

def indexEdge (s : Store) (e : Edge) : Store :=
  { s with
    edgeIndex := s.edgeIndex.insert e.id e
    edgesByNode := attach (attach s.edgesByNode e.source e.id) e.target e.id }

def unindexEdge (s : Store) (e : Edge) : Store :=
  { s with
    edgeIndex := s.edgeIndex.erase e.id
    edgesByNode := detach (detach s.edgesByNode e.source e.id) e.target e.id }

def unindexId (s : Store) (id : String) : Store :=
  match s.edgeIndex.find? id with
  | some e => s.unindexEdge e
  | none => s

def ofDocument (d : Document) : Store :=
  d.edges.foldl indexEdge
    { document := d
      edgeIndex := .empty
      edgesByNode := .empty
      selectedNodes := []
      selectedEdges := []
      focus := none }

def empty : Store :=
  ofDocument .empty

def node? (s : Store) (id : String) : Option Node :=
  s.document.node? id

def edge? (s : Store) (id : String) : Option Edge :=
  s.edgeIndex.find? id

def edgesOf (s : Store) (node : String) : List Edge :=
  ((s.edgesByNode.find? node).getD []).filterMap s.edge?

def withNodes (s : Store) (nodes : Keyed Node) : Store :=
  { s with document := { s.document with nodes := nodes } }

def withEdges (s : Store) (edges : List Edge) : Store :=
  { s with document := { s.document with edges := edges } }

def changeNode (s : Store) (id : String) (f : Node → Node) : Store :=
  s.withNodes (s.document.nodes.modify id f)

def changeLast (id : String) (f : Edge → Edge) : List Edge → List Edge
  | [] => []
  | e :: rest =>
    if rest.any (·.id == id) then e :: changeLast id f rest
    else (if e.id = id then f e else e) :: rest

def changeEdge (s : Store) (id : String) (f : Edge → Edge) : Store :=
  { s.withEdges (changeLast id f s.document.edges) with
    edgeIndex := s.edgeIndex.modify id f }

def unchanged (s : Store) (result : Except StoreError Bool) : Effect :=
  ⟨s, none, result⟩

/-- The operation succeeded and is announced. -/
def changed (s : Store) (change : Change) : Effect :=
  ⟨s, some change, .ok true⟩

/-- A shape as it was asked for: one of the shapes, or a name that is none. -/
abbrev ShapeChoice := Except BadChoice NodeShape

abbrev ArrowChoice := Except BadChoice ArrowKind

/-- A style change as it was asked for, with everything that is wrong with it. -/
abbrev NodeStyleChoice := Except (List FieldError) NodeStylePatch

abbrev EdgeStyleChoice := Except (List FieldError) EdgeStylePatch

def addNode (s : Store) (id label : String) (shape : ShapeChoice) (position : Option Position)
    (style : Option NodeStyleChoice) : Effect :=
  match shape, style.getD (.ok {}) with
  | .error bad, _ => s.unchanged (.error (.badChoice bad))
  | .ok _, .error errors => s.unchanged (.error (.invalidStyle errors))
  | .ok shape, .ok patch =>
    let node : Node := ⟨id, label, shape, NodeStyle.standard.patched patch, position⟩
    (s.withNodes (s.document.nodes.insert id node)).changed .nodes

/-- Changes to a node: what is not given stays as it is. -/
structure NodeUpdate where
  label : Option String := none
  shape : Option ShapeChoice := none
  style : Option NodeStyleChoice := none
  position : Option Position := none

/-- Something else than the position is to change. -/
def NodeUpdate.changesContent (u : NodeUpdate) : Bool :=
  u.label.isSome || u.shape.isSome || u.style.isSome

/-- Changes a node field by field. A bad shape or style stops the update where it is met, and what was
changed before stays. -/
def updateNode (s : Store) (id : String) (u : NodeUpdate) : Effect :=
  if (s.node? id).isNone then s.unchanged (.ok false)
  else
    let s :=
      match u.label with
      | none => s
      | some label => s.changeNode id fun node => { node with label := label }
    match u.shape with
    | some (.error bad) => s.unchanged (.error (.badChoice bad))
    | shape =>
      let s :=
        match shape with
        | some (.ok shape) => s.changeNode id fun node => { node with shape := shape }
        | _ => s
      match u.style with
      | some (.error errors) => s.unchanged (.error (.invalidStyle errors))
      | style =>
        let s :=
          match style with
          | some (.ok patch) =>
            s.changeNode id fun node => { node with style := node.style.patched patch }
          | _ => s
        let s :=
          match u.position with
          | none => s
          | some position => s.changeNode id fun node => { node with position := some position }
        if u.changesContent then s.changed .nodes
        else if u.position.isSome then s.changed .position
        else s.unchanged (.ok true)

def moveNode (s : Store) (id : String) (position : Position) : Effect :=
  s.updateNode id { position := some position }

/-- Deletes a node with the edges at it. -/
def deleteNode (s : Store) (id : String) : Effect :=
  if (s.node? id).isNone then s.unchanged (.ok false)
  else
    let connected := (s.edgesByNode.find? id).getD []
    let s := s.withNodes (s.document.nodes.erase id)
    let s := { s with edgesByNode := s.edgesByNode.erase id }
    let s := s.withEdges (s.document.edges.filter fun e => !connected.contains e.id)
    let s := connected.foldl unindexId s
    let s :=
      { s with
        selectedNodes := s.selectedNodes.filter (· != id)
        selectedEdges := s.selectedEdges.filter fun e => !connected.contains e
        focus := if s.focus = some id then none else s.focus }
    s.changed .nodes

def nonEmpty (label : Option String) : Option String :=
  label.filter (!·.isEmpty)

def addEdge (s : Store) (id source target : String) (label : Option String) (arrow : ArrowChoice) :
    Effect :=
  if source.isEmpty || target.isEmpty then s.unchanged (.error .unspecifiedEnd)
  else if (s.node? source).isNone then s.unchanged (.error (.sourceNotFound source))
  else if (s.node? target).isNone then s.unchanged (.error (.targetNotFound target))
  else
    match arrow with
    | .error bad => s.unchanged (.error (.badChoice bad))
    | .ok kind =>
      let edge : Edge := ⟨id, source, target, nonEmpty label, kind, .standard⟩
      ((s.withEdges (s.document.edges ++ [edge])).indexEdge edge).changed .edges

/-- Changes to an edge: what is not given stays as it is, and an empty label takes the label away. -/
structure EdgeUpdate where
  label : Option String := none
  arrow : Option ArrowChoice := none
  style : Option EdgeStyleChoice := none

/-- Changes an edge field by field. A bad arrow or style stops the update where it is met, and what
was changed before stays. -/
def updateEdge (s : Store) (id : String) (u : EdgeUpdate) : Effect :=
  if (s.edge? id).isNone then s.unchanged (.ok false)
  else
    let s :=
      match u.label with
      | none => s
      | some label => s.changeEdge id fun edge => { edge with label := nonEmpty (some label) }
    match u.arrow with
    | some (.error bad) => s.unchanged (.error (.badChoice bad))
    | chosen =>
      let s :=
        match chosen with
        | some (.ok kind) => s.changeEdge id fun edge => { edge with arrow := kind }
        | _ => s
      match u.style with
      | some (.error errors) => s.unchanged (.error (.invalidStyle errors))
      | style =>
        let s :=
          match style with
          | some (.ok patch) =>
            s.changeEdge id fun edge => { edge with style := edge.style.patched patch }
          | _ => s
        s.changed .edges

/-- Deletes every edge with an id. -/
def deleteEdge (s : Store) (id : String) : Effect :=
  match s.edge? id with
  | none => s.unchanged (.ok false)
  | some edge =>
    let s := s.withEdges (s.document.edges.filter (·.id != id))
    let s := s.unindexEdge edge
    let s := { s with selectedEdges := s.selectedEdges.filter (· != id) }
    s.changed .edges

/-- Puts another document in the place of the current one. Selection and focus are cleared. -/
def replaceAll (_ : Store) (d : Document) : Effect :=
  (ofDocument { d with nodes := .ofValues Node.id d.nodes.values }).changed .replaced

/-- Changes the direction and arranges the nodes anew. -/
def setDirection (s : Store) (direction : Except BadChoice Direction) : Effect :=
  match direction with
  | .error bad => s.unchanged (.error (.badChoice bad))
  | .ok direction =>
    let d := s.document.arranged direction
    { s with document := { d with direction := direction } }.changed .direction

/-- Selects those of the given nodes and edges that exist. -/
def setSelection (s : Store) (nodes edges : List String) : Effect :=
  { s with
    selectedNodes := nodes.filter s.document.nodes.contains
    selectedEdges := edges.filter s.edgeIndex.contains }.changed .selection

def setFocus (s : Store) (node : Option String) : Effect :=
  if node.any fun id => !s.document.nodes.contains id then s.unchanged (.ok false)
  else { s with focus := node }.changed .selection

end Store

inductive StoreOp
  | addNode (id label : String) (shape : Store.ShapeChoice) (position : Option Position)
      (style : Option Store.NodeStyleChoice)
  | updateNode (id : String) (update : Store.NodeUpdate)
  | deleteNode (id : String)
  | addEdge (id source target : String) (label : Option String) (arrow : Store.ArrowChoice)
  | updateEdge (id : String) (update : Store.EdgeUpdate)
  | deleteEdge (id : String)
  | replaceAll (document : Document)
  | setDirection (direction : Except BadChoice Direction)
  | setSelection (nodes edges : List String)
  | setFocus (node : Option String)

def StoreOp.run (s : Store) : StoreOp → Effect
  | addNode id label shape position style => s.addNode id label shape position style
  | updateNode id update => s.updateNode id update
  | deleteNode id => s.deleteNode id
  | addEdge id source target label arrow => s.addEdge id source target label arrow
  | updateEdge id update => s.updateEdge id update
  | deleteEdge id => s.deleteEdge id
  | replaceAll document => s.replaceAll document
  | setDirection direction => s.setDirection direction
  | setSelection nodes edges => s.setSelection nodes edges
  | setFocus node => s.setFocus node

end Flowchart.Live
