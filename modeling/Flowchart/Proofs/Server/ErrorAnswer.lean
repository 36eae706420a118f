import Flowchart.Proofs.Server.Change

/-! What a request leaves behind that is answered with an error. -/
namespace Flowchart.Server

open Live Schema
open Diagram (readArranged)

def Request.Edits [Framework] (request : Request) (text : String) : Prop :=
  Framework.find request.method request.path = .ok .writeText ∧
    App.Gives request.body Request.SetText.rule ⟨text⟩

namespace App

/-- After the request everything is as before, or a text that does not parse was taken. -/
inductive LeavesAlone [Framework] (app : App) (request : Request) (app' : App) : Prop
  | kept (hkeeps : app.Keeps app')
  | unread {text : String} (hedits : request.Edits text) (htakes : app.TakesUnread text app')

/-- The operation has been performed with an effect, and then its answer cannot be sent. -/
structure LosesAnswer [Json.Nesting] [HttpClient] [Framework] [Coercion] (app : App)
    (renderer : Renderer) (request : Request) (operation : Operation) : Prop where
  found : Framework.find request.method request.path = .ok operation
  granted : (app.perform renderer request.body operation).answer.status < 400
  unsendable : ∃ value,
    (app.perform renderer request.body operation).answer.content = .json value ∧
      Framework.canSend value = false
  changes : app.Changes request.body operation

variable {app : App}

section Operate

variable {op : StoreOp} {answer : App → Bool → App × Answer}

/-- Where an operation that is done is granted, and one that finds nothing is answered on the service as
it is, an error leaves everything as it is. -/
theorem operate_of_error (hgood : op.HasGoodChoices)
    (hdone : ∀ hub, app.Performs op hub → (answer { app with hub } true).2.status = 200)
    (hnot : (op.run app.store).result = .ok false → (answer app false).1 = app)
    (herr : 400 ≤ (app.operate op answer).2.status) : (app.operate op answer).1 = app := by
  rcases app.operate_cases hgood answer with ⟨hub, hperforms, heq⟩ | ⟨hresult, heq⟩ | ⟨e, heq⟩
  · rw [heq, hdone hub hperforms] at herr
    omega
  · rw [heq, hnot hresult]
  · rw [heq]

end Operate

section Shown

variable {id : String}

theorem status_showNode (h : (app.store.node? id).isSome) : (app.showNode id).status = 200 := by
  obtain ⟨node, hnode⟩ := Option.isSome_iff_exists.mp h
  rw [showNode, hnode]
  rfl

theorem status_showEdge (h : (app.store.edge? id).isSome) : (app.showEdge id).status = 200 := by
  obtain ⟨edge, hedge⟩ := Option.isSome_iff_exists.mp h
  rw [showEdge, hedge]
  rfl

end Shown

section Handlers

theorem setDirection_of_error (r : Request.SetDirection)
    (herr : 400 ≤ (app.setDirection r).2.status) : (app.setDirection r).1 = app :=
  operate_of_error trivial (fun _ _ => rfl) nofun herr

theorem select_of_error (r : Request.Select) (herr : 400 ≤ (app.select r).2.status) :
    (app.select r).1 = app :=
  operate_of_error trivial (fun _ _ => rfl) nofun herr

theorem editLabel_of_error (r : Request.EditLabel) (herr : 400 ≤ (app.editLabel r).2.status) :
    (app.editLabel r).1 = app :=
  operate_of_error trivial (fun _ _ => rfl) (fun _ => rfl) herr

theorem deleteNode_of_error (id : String) (herr : 400 ≤ (app.deleteNode id).2.status) :
    (app.deleteNode id).1 = app :=
  operate_of_error trivial (fun _ _ => rfl) (fun _ => rfl) herr

theorem deleteEdge_of_error (id : String) (herr : 400 ≤ (app.deleteEdge id).2.status) :
    (app.deleteEdge id).1 = app :=
  operate_of_error trivial (fun _ _ => rfl) (fun _ => rfl) herr

theorem addNode_of_error (r : Request.AddNode) (herr : 400 ≤ (app.addNode r).2.status) :
    (app.addNode r).1 = app := by
  obtain ⟨node, hrun⟩ := exists_run_addition app.ids.nodeId r app.store
  refine operate_of_error (hasGoodChoices_addition _ r) (fun hub hperforms => status_showNode ?_)
    (fun hnot => by rw [hrun] at hnot; cases hnot) herr
  change (hub.store.node? app.ids.nodeId).isSome
  rw [hperforms.store, hrun]
  simp [Store.withNodes, Store.changed, Store.node?, Document.node?]

theorem updateNode_of_error (id : String) (r : Request.UpdateNode)
    (herr : 400 ≤ (app.updateNode id r).2.status) : (app.updateNode id r).1 = app := by
  unfold updateNode at herr ⊢
  cases hnode : app.store.node? id with
  | none => rfl
  | some node =>
    simp only [hnode] at herr ⊢
    refine operate_of_error (hasGoodChoices_updateNode id node r)
      (fun hub hperforms => status_showNode ?_) (fun _ => rfl) herr
    change (hub.store.node? id).isSome
    rw [hperforms.store]
    refine Store.updateNode_induction (P := fun s => (s.node? id).isSome) id _ (by simp [hnode])
      fun s f _ hs => ?_
    simpa [Store.changeNode, Store.withNodes, Store.node?, Document.node?] using hs

theorem addEdge_of_error (r : Request.AddEdge) (herr : 400 ≤ (app.addEdge r).2.status) :
    (app.addEdge r).1 = app := by
  refine operate_of_error trivial (fun hub hperforms => status_showEdge ?_)
    (fun hnot => absurd (Store.exists_addEdge_of_result hnot).1 Bool.false_ne_true) herr
  obtain ⟨-, e, hid, hstore⟩ := Store.exists_addEdge_of_result hperforms.result
  change (hub.store.edge? app.ids.edgeId).isSome
  rw [hperforms.store]
  change ((app.store.addEdge _ _ _ _ _).store.edge? _).isSome
  rw [hstore, ← hid, Store.edge?_indexEdge, if_pos rfl]
  rfl

theorem updateEdge_of_error (id : String) (r : Request.UpdateEdge)
    (herr : 400 ≤ (app.updateEdge id r).2.status) : (app.updateEdge id r).1 = app := by
  refine operate_of_error (hasGoodChoices_updateEdge id r)
    (fun hub hperforms => status_showEdge ?_) (fun _ => rfl) herr
  have hresult := hperforms.result
  change (hub.store.edge? id).isSome
  rw [hperforms.store]
  refine Store.updateEdge_induction (P := fun s => (s.edge? id).isSome) id _ ?_
    fun s f _ hs => ?_
  · by_contra hnone
    rw [Bool.not_eq_true, Option.isSome_eq_false_iff] at hnone
    unfold StoreOp.run Store.updateEdge at hresult
    dsimp only at hresult
    rw [if_pos hnone] at hresult
    cases hresult
  · simpa [Store.changeEdge, Store.edge?] using hs

theorem flush_of_error (herr : 400 ≤ app.flush.2.status) : app.flush.1 = app := by
  rw [app.flush_cases.1] at herr
  exact absurd herr (by decide : ¬400 ≤ 200)

end Handlers

section Requests

variable {body : Option String}

/-- What the operation on a good body leaves in the case of an error, and what holds without an
operation, holds after a request. -/
theorem withBody_of_error [Framework] {α : Type} {rule : Cause → Rule α} {run : α → Response}
    {P : App → Prop} (happ : P app)
    (hrun : ∀ value, Gives body rule value → 400 ≤ (run value).answer.status → P (run value).app)
    (herr : 400 ≤ (app.withBody body rule run).answer.status) :
    P (app.withBody body rule run).app := by
  unfold withBody at herr ⊢
  dsimp only at herr ⊢
  split at herr
  · exact happ
  · next value hvalue => exact hrun value hvalue herr
  · exact happ

theorem withBody_eq_self_of_error [Framework] {α : Type} {rule : Cause → Rule α}
    {run : α → App × Answer} (hrun : ∀ value, 400 ≤ (run value).2.status → (run value).1 = app)
    (herr : 400 ≤ (app.withBody body rule fun r => respond (run r)).answer.status) :
    (app.withBody body rule fun r => respond (run r)).app = app :=
  withBody_of_error (P := (· = app)) rfl (fun value _ => hrun value) herr

theorem exists_unsendable [Framework] {answer : Answer} (hok : answer.status < 400)
    (herr : 400 ≤ answer.sent.status) : ∃ value, answer.content = .json value ∧
      Framework.canSend value = false := by
  unfold Answer.sent at herr
  split at herr
  · next value hvalue =>
    refine ⟨value, hvalue, ?_⟩
    by_contra hsendable
    rw [Bool.not_eq_false] at hsendable
    rw [if_pos hsendable] at herr
    omega
  · omega

variable [Json.Nesting] [HttpClient] [Framework] [Coercion] {renderer : Renderer} {request : Request}

/-- An edit with a text that does not parse changes nothing if it is granted. -/
theorem not_changes_of_unread {text : String} (hbody : Gives body Request.SetText.rule ⟨text⟩)
    (hunread : ¬∃ reading, readArranged text = .ok (.ok reading))
    (hgranted : (app.perform renderer body .writeText).answer.status < 400) :
    ¬app.Changes body .writeText := by
  obtain ⟨r, hgives, heq⟩ := exists_gives_of_granted hgranted
  cases hbody.symm.trans hgives
  rintro ⟨hother, hnew⟩
  cases hbody.symm.trans hother
  have hwritten : (app.writeText ⟨text⟩).2.status < 400 := by
    unfold perform at hgranted
    rwa [heq] at hgranted
  cases app.endsEdit_writeText ⟨text⟩ with
  | same hsame _ _ => exact hnew hsame
  | unread _ _ hstatus => exact absurd hwritten (not_lt.mpr hstatus)
  | read _ hread _ _ => exact hunread hread

/-- An operation that is itself answered with an error leaves everything as it is, but for an edit with
a text that does not parse. -/
theorem perform_of_error {operation : Operation}
    (herr : 400 ≤ (app.perform renderer body operation).answer.status) :
    (app.perform renderer body operation).app = app ∨
      operation = .writeText ∧ ∃ text, Gives body Request.SetText.rule ⟨text⟩ ∧
        app.TakesUnread text (app.perform renderer body operation).app := by
  cases operation with
  | writeText =>
    refine withBody_of_error (P := fun app' => app' = app ∨ .writeText = Operation.writeText ∧
      ∃ text, Gives body Request.SetText.rule ⟨text⟩ ∧ app.TakesUnread text app') (.inl rfl)
      (fun r hr herr => ?_) herr
    cases app.endsEdit_writeText r with
    | same _ _ hstatus => exact absurd (hstatus ▸ herr) (by decide)
    | unread _ htakes _ => exact .inr ⟨rfl, r.text, hr, htakes⟩
    | read _ _ _ hstatus => exact absurd (hstatus ▸ herr) (by decide)
  | setDirection => exact .inl (withBody_eq_self_of_error setDirection_of_error herr)
  | select => exact .inl (withBody_eq_self_of_error select_of_error herr)
  | editLabel => exact .inl (withBody_eq_self_of_error editLabel_of_error herr)
  | addNode => exact .inl (withBody_eq_self_of_error addNode_of_error herr)
  | updateNode id => exact .inl (withBody_eq_self_of_error (updateNode_of_error id) herr)
  | addEdge => exact .inl (withBody_eq_self_of_error addEdge_of_error herr)
  | updateEdge id => exact .inl (withBody_eq_self_of_error (updateEdge_of_error id) herr)
  | exportText => exact .inl (withBody_of_error (P := (· = app)) rfl (fun _ _ _ => rfl) herr)
  | deleteNode id => exact .inl (deleteNode_of_error id herr)
  | deleteEdge id => exact .inl (deleteEdge_of_error id herr)
  | flush => exact .inl (flush_of_error herr)
  | readHealth => exact .inl rfl
  | readText => exact .inl rfl
  | readGraph => exact .inl rfl
  | readNode id => exact .inl rfl
  | readEdge id => exact .inl rfl
  | listShapes => exact .inl rfl
  | listArrows => exact .inl rfl
  | listDirections => exact .inl rfl
  | validate => exact .inl rfl

/-- A request that is answered with an error leaves everything as it is, but for an edit with a text
that does not parse, exactly if the error is not that a granted answer cannot be sent after the operation
had an effect. -/
theorem leavesAlone_iff (herr : 400 ≤ (app.handle renderer request).answer.status) :
    app.LeavesAlone request (app.handle renderer request).app ↔
      ¬∃ operation, app.LosesAnswer renderer request operation := by
  unfold handle at herr ⊢
  cases hfind : Framework.find request.method request.path with
  | error e =>
    refine iff_of_true (.kept (.refl app)) ?_
    rintro ⟨operation, hloses⟩
    cases hloses.found.symm.trans hfind
  | ok operation =>
    simp only [hfind] at herr ⊢
    by_cases hstatus : 400 ≤ (app.perform renderer request.body operation).answer.status
    · refine iff_of_true ?_ ?_
      · rcases perform_of_error hstatus with hsame | ⟨rfl, text, hbody, htakes⟩
        · rw [hsame]
          exact .kept (.refl app)
        · exact .unread ⟨hfind, hbody⟩ htakes
      · rintro ⟨other, hloses⟩
        cases hloses.found.symm.trans hfind
        exact absurd hloses.granted (not_lt.mpr hstatus)
    · have hgranted := not_le.mp hstatus
      constructor
      · rintro hleaves ⟨other, hloses⟩
        cases hloses.found.symm.trans hfind
        cases hleaves with
        | kept hkeeps => exact (keeps_perform_iff hgranted).mp hkeeps hloses.changes
        | unread hedits htakes =>
          cases hedits.1.symm.trans hfind
          exact not_changes_of_unread hedits.2 htakes.unread hgranted hloses.changes
      · intro hloses
        refine .kept ((keeps_perform_iff hgranted).mpr fun hchanges => ?_)
        exact hloses ⟨operation, hfind, hgranted, exists_unsendable hgranted herr, hchanges⟩

end Requests

/-- A service with an empty graph. -/
def bare : App :=
  ⟨.start .empty (some 300) .start, .first, .empty⟩

/-- A node is to be added at a place that is no number. -/
def misplacedNode : Request where
  method := "POST"
  path := "/api/nodes"
  body := some "\x7b\"label\": \"A\", \"x\": \"nan\", \"y\": 0\x7d"

def noRenderer : Renderer := fun _ => .unreachable "offline"

/-- The answer is an error, and the node is there. -/
theorem not_leavesAlone_misplacedNode :
    (bare.handle noRenderer misplacedNode).answer.status = 500 ∧
      (bare.handle noRenderer misplacedNode).app.store.document.nodes.keys = ["n00000001"] ∧
      ¬bare.LeavesAlone misplacedNode (bare.handle noRenderer misplacedNode).app := by
  have hstatus : (bare.handle noRenderer misplacedNode).answer.status = 500 := by decide +kernel
  have hkeys : (bare.handle noRenderer misplacedNode).app.store.document.nodes.keys =
      ["n00000001"] := by decide +kernel
  have herr : 400 ≤ (bare.handle noRenderer misplacedNode).answer.status := by
    rw [hstatus]
    decide
  have hfound : Framework.find misplacedNode.method misplacedNode.path = .ok .addNode := by
    decide +kernel
  have hgranted : (bare.perform noRenderer misplacedNode.body .addNode).answer.status < 400 := by
    decide +kernel
  have happ : (bare.handle noRenderer misplacedNode).app =
      (bare.perform noRenderer misplacedNode.body .addNode).app := by
    simp only [handle, hfound]
  have hsent : 400 ≤ (bare.perform noRenderer misplacedNode.body .addNode).answer.sent.status := by
    simpa only [handle, hfound] using herr
  refine ⟨hstatus, hkeys, fun hleaves => (leavesAlone_iff herr).mp hleaves ⟨.addNode, ?_⟩⟩
  refine ⟨hfound, hgranted, exists_unsendable hgranted hsent, ?_⟩
  by_contra hchanges
  have hdocument := congrArg (·.nodes.keys) ((keeps_perform_iff hgranted).mpr hchanges).document
  rw [← happ, hkeys] at hdocument
  exact absurd hdocument (by decide)

end App
end Flowchart.Server
