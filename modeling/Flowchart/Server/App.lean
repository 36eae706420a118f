import Flowchart.Diagram.Check
import Flowchart.Live.Json
import Flowchart.Server.Answer
import Flowchart.Server.Broadcaster
import Flowchart.Server.Export
import Flowchart.Server.Pool

/-!
The service: a live graph with its text behind requests.
-/
namespace Flowchart.Server

open Live Schema

structure App where
  hub : Hub Broadcaster
  ids : IdSupply
  pool : Pool

namespace App

/-- The broadcaster listens to both sides. -/
def listeners : Listeners Broadcaster where
  onChange := [fun _ _ => .remember Broadcaster.noteGraph .done]
  onText := [fun _ text => .remember (Broadcaster.noteText text) .done]

/-- Asks the hub. The listeners of the service make no calls, so that one level serves. -/
def call (app : App) (c : Live.Call) : App × Reply :=
  match Hub.serve listeners 1 app.hub c with
  | some (hub, reply) => ({ app with hub }, reply)
  | none => (app, .done)

def store (app : App) : Store := app.hub.store

def text (app : App) : String := app.hub.coordinator.text

/-- Runs an operation on the graph: an error is answered with its message. -/
def operate (app : App) (op : StoreOp) (answer : App → Bool → App × Answer) : App × Answer :=
  match app.call (.store op) with
  | (app, .stored (.ok found)) => answer app found
  | (app, .stored (.error e)) => (app, .refused 400 (e.message?.getD ""))
  | (app, _) => (app, .broken)

def writeText (app : App) (r : Request.SetText) : App × Answer :=
  match app.call (.setText r.text) with
  | (app, .reading none) => (app, .granted [("unchanged", .bool true)])
  | (app, .reading (some (.error e))) => (app, ⟨422, .json e.toJson⟩)
  | (app, .reading (some (.ok reading))) => (app, ⟨200, .json reading.toJson⟩)
  | (app, _) => (app, .broken)

def setDirection (app : App) (r : Request.SetDirection) : App × Answer :=
  app.operate (.setDirection (.ok r.direction)) fun app _ =>
    (app, .granted
      [("direction", .string app.store.document.direction.name), ("text", .string app.text)])

def select (app : App) (r : Request.Select) : App × Answer :=
  app.operate (.setSelection r.nodes r.edges) fun app _ =>
    (app, .granted
      [("selected_node_ids", strings app.store.selectedNodes),
       ("selected_edge_ids", strings app.store.selectedEdges)])

def editLabel (app : App) (r : Request.EditLabel) : App × Answer :=
  app.operate (.setFocus r.node) fun app found =>
    (app, if found then .granted [("editing_node_id", .ofString? app.store.focus)]
      else .nodeNotFound)

def flush (app : App) : App × Answer :=
  match app.call .flush with
  | (app, .flushed ran) =>
    (app, .granted [("flushed", .bool ran), ("text", .string app.text)])
  | (app, _) => (app, .broken)

def showNode (app : App) (id : String) : Answer :=
  match app.store.node? id with
  | some node => .granted [("node", node.toJson)]
  | none => .nodeNotFound

def showEdge (app : App) (id : String) : Answer :=
  match app.store.edge? id with
  | some edge => .granted [("edge", edge.toJson)]
  | none => .edgeNotFound

/-- The next id of the supply is used up. -/
def drawId (app : App) : App :=
  { app with ids := app.ids.advance }

/-- A new node under an id has a position only if both coordinates are given. -/
def addition (id : String) (r : Request.AddNode) : StoreOp :=
  let position :=
    match r.x, r.y with
    | some x, some y => some (Position.mk x y)
    | _, _ => none
  .addNode id r.label (.ok r.shape) position (r.style.map .ok)

def addNode (app : App) (r : Request.AddNode) : App × Answer :=
  let id := app.ids.nodeId
  app.operate (addition id r) fun app _ => (app.drawId, app.showNode id)

/-- The position after an update: a coordinate that is not given stays as it is. -/
def moved (current : Option Position) (x y : Option Binary64) : Option Position :=
  if x.isNone && y.isNone then none
  else
    let p := current.getD ⟨0, 0⟩
    some ⟨x.getD p.x, y.getD p.y⟩

/-- A style that changes nothing counts as not given. -/
def effective {α : Type} [DecidableEq α] (empty : α) (patch : Option α) :
    Option (Except (List FieldError) α) :=
  (patch.filter fun p => !decide (p = empty)).map .ok

/-- What is asked for as a change of a node. -/
def nodeChangeOf (node : Node) (r : Request.UpdateNode) : Store.NodeUpdate where
  label := r.label
  shape := r.shape.map .ok
  style := effective {} r.style
  position := moved node.position r.x r.y

def updateNode (app : App) (id : String) (r : Request.UpdateNode) : App × Answer :=
  match app.store.node? id with
  | none => (app, .nodeNotFound)
  | some node =>
    app.operate (.updateNode id (nodeChangeOf node r)) fun app _ => (app, app.showNode id)

def deleteNode (app : App) (id : String) : App × Answer :=
  app.operate (.deleteNode id) fun app found =>
    (app, if found then .granted [] else .nodeNotFound)

def addEdge (app : App) (r : Request.AddEdge) : App × Answer :=
  let id := app.ids.edgeId
  app.operate (.addEdge id r.source r.target r.label (.ok r.arrow)) fun app _ =>
    (app.drawId, app.showEdge id)

def edgeChangeOf (r : Request.UpdateEdge) : Store.EdgeUpdate where
  label := r.label
  arrow := r.arrow.map .ok
  style := effective {} r.style

def updateEdge (app : App) (id : String) (r : Request.UpdateEdge) : App × Answer :=
  app.operate (.updateEdge id (edgeChangeOf r)) fun app found =>
    (app, if found then app.showEdge id else .edgeNotFound)

def deleteEdge (app : App) (id : String) : App × Answer :=
  app.operate (.deleteEdge id) fun app found =>
    (app, if found then .granted [] else .edgeNotFound)

def validate (app : App) : Answer :=
  let issues := app.store.document.issues
  .granted
    [("issues", .array (issues.map Issue.toJson)), ("summary", (IssueSummary.of issues).toJson)]

def exportAnswer (format : ExportFormat) : Except ExportError Http.Bytes → Answer
  | .ok content => ⟨200, .file content format.mediaType ("diagram." ++ format.name)⟩
  | .error e =>
    match e, e.message? with
    | .noCode, some message => .refused 400 message
    | .badFormat _, some message => .refused 400 message
    | .unsendable _, some message => .refused 400 message
    | _, some message => .refused 502 message
    | _, none => .broken

/-- The export that a request asks for: of the given text, or of the current one. -/
def runExport [Json.Nesting] [HttpClient] (app : App) (renderer : Renderer) (r : Request.Export) : Export :=
  Export.run renderer (r.code.getD app.text) (.ok r.format)

/-- What a request did: the service after it, the answer, and the order sent to the renderer. -/
structure Response where
  app : App
  answer : Answer
  ordered : Option ExportOrder

def respond (result : App × Answer) : Response := ⟨result.1, result.2, none⟩

/-- Goes on with the value of a body, or answers what is wrong with it. -/
def withBody [Framework] {α : Type} (app : App) (text : Option String) (rule : Cause → Rule α)
    (run : α → Response) : Response :=
  let body := Framework.read text
  match body.check (rule .notRecord) with
  | .error answer => respond (app, answer)
  | .ok (.valid value) => run value
  | .ok (.invalid errors) => respond (app, body.refusal errors)

def names {α : Type} (key : String) (name : α → String) (all : List α) : Answer :=
  .ok [(key, strings (all.map name))]

section

variable [Json.Nesting] [HttpClient] [Framework] [Coercion]

def perform (app : App) (renderer : Renderer) (body : Option String) : Operation → Response
  | .readHealth =>
    respond (app, .ok [("status", .string "ok"), ("connections", .ofNat app.pool.clients.length)])
  | .readText =>
    respond (app, .ok [("text", .string app.text), ("sync", app.hub.coordinator.toJson)])
  | .writeText => app.withBody body Request.SetText.rule fun r => respond (app.writeText r)
  | .readGraph => respond (app, ⟨200, .json app.store.toJson⟩)
  | .setDirection =>
    app.withBody body Request.SetDirection.rule fun r => respond (app.setDirection r)
  | .select => app.withBody body Request.Select.rule fun r => respond (app.select r)
  | .editLabel => app.withBody body Request.EditLabel.rule fun r => respond (app.editLabel r)
  | .flush => respond app.flush
  | .addNode => app.withBody body Request.AddNode.rule fun r => respond (app.addNode r)
  | .readNode id => respond (app, app.showNode id)
  | .updateNode id =>
    app.withBody body Request.UpdateNode.rule fun r => respond (app.updateNode id r)
  | .deleteNode id => respond (app.deleteNode id)
  | .addEdge => app.withBody body Request.AddEdge.rule fun r => respond (app.addEdge r)
  | .readEdge id => respond (app, app.showEdge id)
  | .updateEdge id =>
    app.withBody body Request.UpdateEdge.rule fun r => respond (app.updateEdge id r)
  | .deleteEdge id => respond (app.deleteEdge id)
  | .listShapes => respond (app, names "shapes" NodeShape.name NodeShape.all)
  | .listArrows => respond (app, names "arrows" ArrowKind.name ArrowKind.all)
  | .listDirections => respond (app, names "directions" Direction.name Direction.all)
  | .validate => respond (app, app.validate)
  | .exportText =>
    app.withBody body Request.Export.rule fun r =>
      let run := app.runExport renderer r
      ⟨app, exportAnswer r.format run.result, run.sent⟩

def handle (app : App) (renderer : Renderer) (request : Request) : Response :=
  match Framework.find request.method request.path with
  | .error e => respond (app, .misdirected e)
  | .ok operation =>
    let response := app.perform renderer request.body operation
    { response with answer := response.answer.sent }

end

end App
end Flowchart.Server
