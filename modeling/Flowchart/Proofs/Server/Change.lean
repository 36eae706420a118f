import Flowchart.Proofs.Live.Announcement
import Flowchart.Proofs.Live.Burst
import Flowchart.Proofs.Live.Moment
import Flowchart.Proofs.Live.Operation
import Flowchart.Server.App

/-! What requests change that are granted: some operations change nothing, some always do, and the others if
what they ask for is not there yet. -/
namespace Flowchart.Live

namespace Store

theorem change_updateNode {s : Store} {id : String} {u : NodeUpdate}
    (hgood : (StoreOp.updateNode id u).HasGoodChoices) (hnode : (s.node? id).isSome) :
    (s.updateNode id u).change = if u.changesContent then some .nodes
      else if u.position.isSome then some .position else none := by
  obtain ⟨hshape, hstyle⟩ := hgood
  unfold updateNode
  rw [if_neg (by simpa [← Option.isSome_iff_ne_none] using hnode)]
  extract_lets s₁
  split
  · next bad hbad => exact absurd hbad (hshape bad)
  extract_lets s₂
  split
  · next errors herrors => exact absurd herrors (hstyle errors)
  extract_lets s₃ s₄
  split_ifs <;> rfl

theorem change_updateEdge {s : Store} {id : String} {u : EdgeUpdate}
    (hresult : (s.updateEdge id u).result = .ok true) : (s.updateEdge id u).change = some .edges := by
  revert hresult
  unfold updateEdge
  by_cases hn : (s.edge? id).isNone
  · rw [if_pos hn]
    nofun
  rw [if_neg hn]
  extract_lets s₁
  split
  · nofun
  extract_lets s₂
  split
  · nofun
  · exact fun _ => rfl

theorem change_deleteEdge {s : Store} {id : String} (hresult : (s.deleteEdge id).result = .ok true) :
    (s.deleteEdge id).change = some .edges := by
  revert hresult
  unfold deleteEdge
  split
  · nofun
  · exact fun _ => rfl

theorem exists_addEdge_of_result {s : Store} {id source target : String} {label : Option String}
    {arrow : ArrowChoice} {found : Bool}
    (hresult : (s.addEdge id source target label arrow).result = .ok found) :
    found = true ∧ ∃ e : Edge, e.id = id ∧ (s.addEdge id source target label arrow).store =
      (s.withEdges (s.document.edges ++ [e])).indexEdge e := by
  revert hresult
  unfold addEdge
  split_ifs
  · nofun
  · nofun
  · nofun
  split
  · nofun
  · intro hresult
    cases hresult
    exact ⟨rfl, _, rfl, rfl⟩

theorem surface_updateNode (s : Store) (id : String) (u : NodeUpdate) :
    (s.updateNode id u).store.surface =
      ((s.updateNode id u).store.document, s.selectedNodes, s.selectedEdges, s.focus) := by
  have hsame := updateNode_induction (s := s)
    (P := fun t => (t.selectedNodes, t.selectedEdges, t.focus) =
      (s.selectedNodes, s.selectedEdges, s.focus)) id u rfl fun _ _ _ h => h
  rw [surface, hsame]

theorem node?_deleteNode (s : Store) (id : String) : (s.deleteNode id).store.node? id = none := by
  unfold deleteNode
  split_ifs with hn
  · exact Option.isNone_iff_eq_none.mp hn
  extract_lets ids s₁ s₂ s₃ s₄ s₅
  have hsurface := surface_foldl surface_unindexId ids s₃
  simp only [surface, Prod.mk.injEq] at hsurface
  change s₄.document.nodes.find? id = none
  rw [hsurface.1]
  exact (Keyed.find?_erase _ _ _).trans (if_pos rfl)

end Store

namespace Hub

variable {Memory : Type} {ls : Listeners Memory} {h h' : Hub Memory}

/-- No sync is under way, so that the coordinator acts on changes of the graph. -/
def Listens (h : Hub Memory) : Prop :=
  h.coordinator.phase = .idle ∨ h.coordinator.phase = .waiting

/-- On the side of the text nothing has happened. -/
structure Rests (h h' : Hub Memory) : Prop where
  text : h'.coordinator.text = h.coordinator.text
  pending : h'.coordinator.pending = h.coordinator.pending
  timers : h'.timers = h.timers
  writes : h'.coordinator.writes = h.coordinator.writes

theorem Takes.rests_iff {change : Change} (ht : Takes h change h') :
    h.Rests h' ↔ ¬change.ShowsInText := by
  cases ht with
  | ignore hc => exact iff_of_true ⟨rfl, rfl, rfl, rfl⟩ (mt Change.showsInText_iff.mp (not_not.mpr hc))
  | write memory =>
    refine iff_of_false (fun hrests => ?_) (not_not.mpr (.inr (.inr (.inl rfl))))
    have hwrites : h.cancelPending.coordinator.writes = h.coordinator.writes := by
      rw [cancelPending_eq]
    exact Nat.succ_ne_self _ (hwrites ▸ hrests.writes)
  | schedule hc =>
    refine iff_of_false (fun hrests => ?_) (not_not.mpr ?_)
    · have hnext : h.schedule.timers.nextId = h.cancelPending.timers.nextId + 1 := rfl
      rw [hrests.timers, cancelPending_eq] at hnext
      cases hpending : h.coordinator.pending <;> simp [hpending, Timers.remove] at hnext
    · rcases hc with rfl | rfl | rfl <;> simp [Change.ShowsInText]

theorem rests_takeChange_iff (serve : Service Memory) (hq : ls.AreQuiet) {change : Change}
    (htake : takeChange serve ls change h = some h') :
    h.Rests h' ↔ ¬(h.Listens ∧ change.ShowsInText) := by
  by_cases hl : h.Listens
  · obtain ⟨taken, hother, htakes⟩ := takeChange_quiet serve hq hl change
    cases htake.symm.trans hother
    rw [htakes.rests_iff, and_iff_right hl]
  · refine iff_of_true ?_ fun hshows => hl hshows.1
    cases hp : h.coordinator.phase with
    | idle => exact absurd (.inl hp) hl
    | waiting => exact absurd (.inr hp) hl
    | readingText =>
      simp only [takeChange, hp, Option.some.injEq] at htake
      exact htake ▸ ⟨rfl, rfl, rfl, rfl⟩
    | writingText =>
      simp only [takeChange, hp, Option.some.injEq] at htake
      exact htake ▸ ⟨rfl, rfl, rfl, rfl⟩

/-- An operation on the graph reaches the side of the text if the coordinator listens and the change shows
there. -/
theorem rests_operate_iff (serve : Service Memory) (hq : ls.AreQuiet) {op : StoreOp}
    {result : Except StoreError Bool} (hoperate : operate serve ls h op = some (h', result)) :
    h.Rests h' ↔ ∀ change ∈ (op.run h.store).change, ¬(h.Listens ∧ change.ShowsInText) := by
  unfold operate at hoperate
  dsimp only at hoperate
  cases hchange : (op.run h.store).change with
  | none =>
    rw [hchange] at hoperate
    cases hoperate
    exact iff_of_true ⟨rfl, rfl, rfl, rfl⟩ nofun
  | some change =>
    obtain ⟨taken, htake, -⟩ :=
      exists_takeChange_quiet serve hq { h with store := (op.run h.store).store } change
    obtain ⟨memory, htell⟩ := tellChange_quiet serve hq.onChange change taken
    simp only [hchange, announce, htake, htell, Option.map_some, Option.some.injEq,
      Prod.mk.injEq] at hoperate
    obtain ⟨rfl, -⟩ := hoperate
    have hiff := rests_takeChange_iff serve hq htake
    simp only [Option.mem_def, Option.some.injEq, forall_eq']
    exact ⟨fun hrests => hiff.mp ⟨hrests.text, hrests.pending, hrests.timers, hrests.writes⟩,
      fun hno => have hrests := hiff.mpr hno; ⟨hrests.text, hrests.pending, hrests.timers, hrests.writes⟩⟩

end Hub

end Flowchart.Live

namespace Flowchart.Server.App

open Live Schema
open Diagram (readArranged)

/-- Graph, selection and focus are as before. -/
structure KeepsGraph (app app' : App) : Prop where
  document : app'.store.document = app.store.document
  selectedNodes : app'.store.selectedNodes = app.store.selectedNodes
  selectedEdges : app'.store.selectedEdges = app.store.selectedEdges
  focus : app'.store.focus = app.store.focus

/-- So are the text, the pending timer and the number of writes. -/
structure Keeps (app app' : App) : Prop extends KeepsGraph app app' where
  text : app'.text = app.text
  pending : app'.hub.coordinator.pending = app.hub.coordinator.pending
  timers : app'.hub.timers = app.hub.timers
  writes : app'.hub.coordinator.writes = app.hub.coordinator.writes

/-- A text that does not parse has become the text, and nothing is pending any more. -/
structure TakesUnread (text : String) (app app' : App) : Prop extends KeepsGraph app app' where
  unread : ¬∃ reading, readArranged text = .ok (.ok reading)
  error : ∀ e, readArranged text = .ok (.error e) → app'.hub.coordinator.error = some e
  text : app'.text = text
  pending : app'.hub.coordinator.pending = none
  writes : app'.hub.coordinator.writes = app.hub.coordinator.writes

theorem KeepsGraph.of_store {app app' : App} (h : app'.store = app.store) : app.KeepsGraph app' := by
  constructor <;> rw [h]

theorem Keeps.refl (app : App) : app.Keeps app :=
  ⟨⟨rfl, rfl, rfl, rfl⟩, rfl, rfl, rfl, rfl⟩

theorem keepsGraph_iff {app app' : App} :
    app.KeepsGraph app' ↔ app'.store.surface = app.store.surface := by
  simp only [Store.surface, Prod.mk.injEq]
  constructor
  · intro h
    exact ⟨h.document, h.selectedNodes, h.selectedEdges, h.focus⟩
  · intro h
    obtain ⟨hdocument, hnodes, hedges, hfocus⟩ := h
    exact ⟨hdocument, hnodes, hedges, hfocus⟩

theorem keeps_iff {app app' : App} : app.Keeps app' ↔
    app'.store.surface = app.store.surface ∧ app.hub.Rests app'.hub := by
  rw [← keepsGraph_iff]
  constructor
  · intro h
    exact ⟨h.toKeepsGraph, h.text, h.pending, h.timers, h.writes⟩
  · intro h
    obtain ⟨hgraph, hrests⟩ := h
    exact ⟨hgraph, hrests.text, hrests.pending, hrests.timers, hrests.writes⟩

/-- A rule makes a value of the body of a request. -/
def Gives [Framework] {α : Type} (body : Option String) (rule : Cause → Rule α) (value : α) : Prop :=
  (Framework.read body).check (rule .notRecord) = .ok (.valid value)

/-- What an operation on the graph does is noticed: the coordinator acts on it, or, while a sync is under way,
graph, selection and focus are not as before. -/
def Alters (app : App) (op : StoreOp) : Prop :=
  app.hub.Listens ∨ (op.run app.store).store.surface ≠ app.store.surface

/-- What an operation changes if it is granted. -/
inductive Changes [Framework] [Coercion] (app : App) (body : Option String) : Operation → Prop
  | writeText {r : Request.SetText} (hbody : Gives body Request.SetText.rule r)
      (htext : r.text ≠ app.text) : Changes app body .writeText
  | flush (hpending : app.hub.coordinator.pending ≠ none) : Changes app body .flush
  | setDirection {r : Request.SetDirection} (hbody : Gives body Request.SetDirection.rule r)
      (h : app.Alters (.setDirection (.ok r.direction))) : Changes app body .setDirection
  | select {r : Request.Select} (hbody : Gives body Request.Select.rule r)
      (h : r.nodes.filter app.store.document.nodes.contains ≠ app.store.selectedNodes ∨
        r.edges.filter app.store.edgeIndex.contains ≠ app.store.selectedEdges) :
      Changes app body .select
  | editLabel {r : Request.EditLabel} (hbody : Gives body Request.EditLabel.rule r)
      (hnode : r.node ≠ app.store.focus) : Changes app body .editLabel
  | addNode {r : Request.AddNode} (hbody : Gives body Request.AddNode.rule r)
      (h : app.Alters (addition app.ids.nodeId r)) : Changes app body .addNode
  | updateNode {id : String} {node : Node} {r : Request.UpdateNode}
      (hnode : app.store.node? id = some node) (hbody : Gives body Request.UpdateNode.rule r)
      (h : app.hub.Listens ∧ (nodeChangeOf node r).changesContent = true ∨
        (app.store.updateNode id (nodeChangeOf node r)).store.document ≠ app.store.document) :
      Changes app body (.updateNode id)
  | deleteNode {id : String} : Changes app body (.deleteNode id)
  | addEdge : Changes app body .addEdge
  | updateEdge {id : String} {r : Request.UpdateEdge} (hbody : Gives body Request.UpdateEdge.rule r)
      (h : app.Alters (.updateEdge id (edgeChangeOf r))) : Changes app body (.updateEdge id)
  | deleteEdge {id : String} (h : app.Alters (.deleteEdge id)) : Changes app body (.deleteEdge id)

theorem onlyRemember_listeners : listeners.OnlyRemember := by
  constructor
  · intro listener hl h change
    obtain rfl := List.mem_singleton.mp hl
    exact .remember .done
  · intro listener hl h text
    obtain rfl := List.mem_singleton.mp hl
    exact .remember .done

variable {app : App}

section Operate

variable {op : StoreOp} {answer : App → Bool → App × Answer}

/-- The hub after an operation on the graph that is done. -/
structure Performs (app : App) (op : StoreOp) (hub : Hub Broadcaster) : Prop where
  store : hub.store = (op.run app.store).store
  result : (op.run app.store).result = .ok true
  rests_iff : app.hub.Rests hub ↔
    ∀ change ∈ (op.run app.store).change, ¬(app.hub.Listens ∧ change.ShowsInText)

/-- How an operation on the graph is answered: it is done, or what it is about is not there, or it is
refused, and then nothing has changed. -/
theorem operate_cases (app : App) (hgood : op.HasGoodChoices)
    (answer : App → Bool → App × Answer) :
    (∃ hub, app.Performs op hub ∧ app.operate op answer = answer { app with hub } true) ∨
    ((op.run app.store).result = .ok false ∧ app.operate op answer = answer app false) ∨
    ∃ e, app.operate op answer = (app, .refused 400 e) := by
  have hquiet := onlyRemember_listeners.areQuiet
  obtain ⟨hub, hserve, hstore, hsame⟩ :=
    Hub.exists_operate_quiet (Hub.serve listeners 0) hquiet app.hub op
  have hcall : app.call (.store op) = ({ app with hub }, .stored (op.run app.store).result) := by
    have hserved : Hub.serve listeners 1 app.hub (.store op) =
        some (hub, .stored (op.run app.store).result) := by
      rw [Hub.serve, Hub.serveWith, hserve]
      rfl
    rw [call, hserved]
  have hkept : (op.run app.store).result ≠ .ok true → hub = app.hub := by
    intro hne
    have hrun := StoreOp.run_of_result_ne hgood hne
    have hchange : (op.run app.hub.store).change = none := congrArg Effect.change hrun
    have hunchanged : (op.run app.hub.store).store = app.hub.store := congrArg Effect.store hrun
    rw [hsame hchange, hunchanged]
  unfold operate
  rw [hcall]
  rcases hresult : (op.run app.store).result with e | found
  · rw [hkept (by simp [hresult])]
    exact .inr (.inr ⟨_, rfl⟩)
  · cases found with
    | false =>
      rw [hkept (by simp [hresult])]
      exact .inr (.inl ⟨rfl, rfl⟩)
    | true => exact .inl ⟨hub, ⟨hstore, hresult, Hub.rests_operate_iff _ hquiet hserve⟩, rfl⟩

/-- A granted operation on the graph is done, and what it leaves as it is can be told from the store and the
change that is announced. -/
theorem keeps_operate_iff (op : StoreOp) (hgood : op.HasGoodChoices)
    (hdone : ∀ app : App, (answer app true).1.hub = app.hub)
    (hnot : (op.run app.store).result = .ok false → 400 ≤ (answer app false).2.status)
    (hgranted : (app.operate op answer).2.status < 400) :
    (op.run app.store).result = .ok true ∧ (app.Keeps (app.operate op answer).1 ↔
      (op.run app.store).store.surface = app.store.surface ∧
        ∀ change ∈ (op.run app.store).change, ¬(app.hub.Listens ∧ change.ShowsInText)) := by
  rcases app.operate_cases hgood answer with ⟨hub, hperforms, heq⟩ | ⟨hresult, heq⟩ | ⟨e, heq⟩
  · refine ⟨hperforms.result, ?_⟩
    have hhub := hdone { app with hub }
    have hstore : (app.operate op answer).1.store = (op.run app.store).store := by
      rw [heq, App.store, hhub, hperforms.store]
    rw [keeps_iff, hstore, heq, hhub, hperforms.rests_iff]
  · rw [heq] at hgranted
    exact absurd (hnot hresult) (not_le.mpr hgranted)
  · rw [heq] at hgranted
    exact absurd hgranted (by decide : ¬400 < 400)

/-- Where the change that is announced shows in the text, whatever the operation alters is noticed. -/
theorem keeps_iff_not_alters {change : Change} (hchange : (op.run app.store).change = some change)
    (hshows : change.ShowsInText) :
    ((op.run app.store).store.surface = app.store.surface ∧
      ∀ change ∈ (op.run app.store).change, ¬(app.hub.Listens ∧ change.ShowsInText)) ↔
      ¬app.Alters op := by
  simp only [hchange, Option.mem_def, Option.some.injEq, forall_eq', hshows, and_true, Alters, not_or,
    not_not]
  exact and_comm

end Operate

section Handlers

theorem effective_ne_error {α : Type} [DecidableEq α] (empty : α) (patch : Option α)
    (errors : List FieldError) : effective empty patch ≠ some (.error errors) := by
  unfold effective
  cases patch.filter fun p => !decide (p = empty) <;> nofun

theorem hasGoodChoices_addition (id : String) (r : Request.AddNode) :
    (addition id r).HasGoodChoices :=
  trivial

theorem hasGoodChoices_updateNode (id : String) (node : Node) (r : Request.UpdateNode) :
    (StoreOp.updateNode id (nodeChangeOf node r)).HasGoodChoices := by
  refine ⟨?_, effective_ne_error _ _⟩
  unfold nodeChangeOf
  cases r.shape <;> nofun

theorem hasGoodChoices_updateEdge (id : String) (r : Request.UpdateEdge) :
    (StoreOp.updateEdge id (edgeChangeOf r)).HasGoodChoices := by
  refine ⟨?_, effective_ne_error _ _⟩
  unfold edgeChangeOf
  cases r.arrow <;> nofun

theorem keeps_setDirection_iff (r : Request.SetDirection)
    (hgranted : (app.setDirection r).2.status < 400) :
    app.Keeps (app.setDirection r).1 ↔ ¬app.Alters (.setDirection (.ok r.direction)) := by
  obtain ⟨-, hkeeps⟩ := keeps_operate_iff (.setDirection (.ok r.direction)) trivial
    (fun _ => rfl) nofun hgranted
  exact hkeeps.trans (keeps_iff_not_alters rfl (.inr (.inr (.inl rfl))))

theorem keeps_select_iff (r : Request.Select) (hgranted : (app.select r).2.status < 400) :
    app.Keeps (app.select r).1 ↔
      ¬(r.nodes.filter app.store.document.nodes.contains ≠ app.store.selectedNodes ∨
        r.edges.filter app.store.edgeIndex.contains ≠ app.store.selectedEdges) := by
  obtain ⟨-, hkeeps⟩ := keeps_operate_iff (.setSelection r.nodes r.edges) trivial
    (fun _ => rfl) nofun hgranted
  refine hkeeps.trans ?_
  simp [StoreOp.run, Store.setSelection, Store.changed, Store.surface, Change.ShowsInText]

theorem keeps_editLabel_iff (r : Request.EditLabel) (hgranted : (app.editLabel r).2.status < 400) :
    app.Keeps (app.editLabel r).1 ↔ ¬r.node ≠ app.store.focus := by
  obtain ⟨hresult, hkeeps⟩ := keeps_operate_iff (.setFocus r.node) trivial (fun _ => rfl)
    (fun _ => (by decide : 400 ≤ 404)) hgranted
  refine hkeeps.trans ?_
  change (app.store.setFocus r.node).result = _ at hresult
  unfold StoreOp.run Store.setFocus at *
  dsimp only at hresult ⊢
  split_ifs at hresult ⊢ with hunknown
  · cases hresult
  · simp [Store.changed, Store.surface, Change.ShowsInText]

theorem exists_run_addition (id : String) (r : Request.AddNode) (s : Store) :
    ∃ node, (addition id r).run s =
      (s.withNodes (s.document.nodes.insert id node)).changed .nodes := by
  unfold addition
  cases r.style <;> exact ⟨_, rfl⟩

theorem keeps_addNode_iff (r : Request.AddNode) (hgranted : (app.addNode r).2.status < 400) :
    app.Keeps (app.addNode r).1 ↔ ¬app.Alters (addition app.ids.nodeId r) := by
  obtain ⟨node, hrun⟩ := exists_run_addition app.ids.nodeId r app.store
  obtain ⟨-, hkeeps⟩ := keeps_operate_iff _ (hasGoodChoices_addition _ r) (fun _ => rfl)
    (fun hnot => by rw [hrun] at hnot; cases hnot) hgranted
  exact hkeeps.trans (keeps_iff_not_alters (by rw [hrun]; rfl) (.inl rfl))

theorem keeps_updateNode_iff {id : String} {node : Node} (hnode : app.store.node? id = some node)
    (r : Request.UpdateNode) (hgranted : (app.updateNode id r).2.status < 400) :
    app.Keeps (app.updateNode id r).1 ↔
      ¬(app.hub.Listens ∧ (nodeChangeOf node r).changesContent = true ∨
        (app.store.updateNode id (nodeChangeOf node r)).store.document ≠ app.store.document) := by
  have hgood := hasGoodChoices_updateNode id node r
  have hsome : (app.store.node? id).isSome := Option.isSome_of_eq_some hnode
  unfold updateNode at hgranted ⊢
  simp only [hnode] at hgranted ⊢
  obtain ⟨-, hkeeps⟩ := keeps_operate_iff _ hgood (fun _ => rfl)
    (fun hnot => absurd hnot (StoreOp.result_updateNode_ne (by simp [hnode]) _)) hgranted
  refine hkeeps.trans ?_
  change (app.store.updateNode id (nodeChangeOf node r)).store.surface = _ ∧
    (∀ change ∈ (app.store.updateNode id (nodeChangeOf node r)).change, _) ↔ _
  rw [Store.change_updateNode hgood hsome, Store.surface_updateNode]
  have hannounced : (∀ change ∈ (if (nodeChangeOf node r).changesContent then some Change.nodes
      else if (nodeChangeOf node r).position.isSome then some .position else none),
      ¬(app.hub.Listens ∧ change.ShowsInText)) ↔
      ¬(app.hub.Listens ∧ (nodeChangeOf node r).changesContent = true) := by
    split_ifs with hcontent hplace <;> simp [Change.ShowsInText, hcontent]
  rw [hannounced, not_or, and_comm, not_not]
  simp [Store.surface]

theorem not_keeps_deleteNode (id : String) (hgranted : (app.deleteNode id).2.status < 400) :
    ¬app.Keeps (app.deleteNode id).1 := by
  obtain ⟨hresult, hkeeps⟩ := keeps_operate_iff (.deleteNode id) trivial (fun _ => rfl)
    (fun _ => (by decide : 400 ≤ 404)) hgranted
  intro hkept
  have hdocument : (app.store.deleteNode id).store.document = app.store.document :=
    congrArg Prod.fst (hkeeps.mp hkept).1
  have hnode : app.store.node? id = none := by
    rw [← Store.node?_deleteNode app.store id, Store.node?, Store.node?, hdocument]
  change (app.store.deleteNode id).result = _ at hresult
  unfold Store.deleteNode at hresult
  rw [if_pos (Option.isNone_iff_eq_none.mpr hnode)] at hresult
  cases hresult

theorem not_keeps_addEdge (r : Request.AddEdge) (hgranted : (app.addEdge r).2.status < 400) :
    ¬app.Keeps (app.addEdge r).1 := by
  obtain ⟨hresult, hkeeps⟩ := keeps_operate_iff
    (.addEdge app.ids.edgeId r.source r.target r.label (.ok r.arrow)) trivial (fun _ => rfl)
    (fun hnot => absurd (Store.exists_addEdge_of_result hnot).1 Bool.false_ne_true) hgranted
  obtain ⟨-, e, -, hstore⟩ := Store.exists_addEdge_of_result hresult
  intro hkept
  have hsurface := (hkeeps.mp hkept).1
  change (app.store.addEdge _ _ _ _ _).store.surface = _ at hsurface
  rw [hstore] at hsurface
  have hedges := congrArg (fun surface => surface.1.edges.length) hsurface
  simp [Store.surface, Store.indexEdge, Store.withEdges] at hedges

theorem keeps_updateEdge_iff (id : String) (r : Request.UpdateEdge)
    (hgranted : (app.updateEdge id r).2.status < 400) :
    app.Keeps (app.updateEdge id r).1 ↔ ¬app.Alters (.updateEdge id (edgeChangeOf r)) := by
  obtain ⟨hresult, hkeeps⟩ := keeps_operate_iff _ (hasGoodChoices_updateEdge id r) (fun _ => rfl)
    (fun _ => (by decide : 400 ≤ 404)) hgranted
  exact hkeeps.trans (keeps_iff_not_alters (Store.change_updateEdge hresult) (.inr (.inl rfl)))

theorem keeps_deleteEdge_iff (id : String) (hgranted : (app.deleteEdge id).2.status < 400) :
    app.Keeps (app.deleteEdge id).1 ↔ ¬app.Alters (.deleteEdge id) := by
  obtain ⟨hresult, hkeeps⟩ := keeps_operate_iff (.deleteEdge id) trivial (fun _ => rfl)
    (fun _ => (by decide : 400 ≤ 404)) hgranted
  exact hkeeps.trans (keeps_iff_not_alters (Store.change_deleteEdge hresult) (.inr (.inl rfl)))

/-- How an edit ends: the text is the current one, or it does not parse, or it has become the text with its
graph. -/
inductive EndsEdit (app : App) (text : String) (result : App × Answer) : Prop
  | same (hsame : text = app.text) (happ : result.1 = app) (hstatus : result.2.status = 200)
  | unread (hnew : text ≠ app.text) (htakes : app.TakesUnread text result.1)
      (hstatus : 400 ≤ result.2.status)
  | read (hnew : text ≠ app.text) (hread : ∃ reading, readArranged text = .ok (.ok reading))
      (htext : result.1.text = text) (hstatus : result.2.status = 200)

theorem endsEdit_writeText (app : App) (r : Request.SetText) : app.EndsEdit r.text (app.writeText r) := by
  have hcall : ∀ {hub reply}, Hub.serve listeners 1 app.hub (.setText r.text) = some (hub, reply) →
      app.call (.setText r.text) = ({ app with hub }, reply) := by
    intro hub reply hserved
    rw [call, hserved]
  unfold writeText
  by_cases hsame : r.text = app.hub.coordinator.text
  · rw [hcall (if_pos hsame)]
    exact .same hsame rfl rfl
  have hserve : Hub.serve listeners 1 app.hub (.setText r.text) =
      Hub.readText (Hub.serve listeners 0) listeners app.hub r.text := if_neg hsame
  unfold Hub.readText at hserve
  dsimp only at hserve
  have hgraph := Hub.store_cancelPending app.hub
  have hpending := Hub.pending_cancelPending app.hub
  have hwrites : app.hub.cancelPending.coordinator.writes = app.hub.coordinator.writes := by
    rw [Hub.cancelPending_eq]
  cases hread : readArranged r.text with
  | error e =>
    simp only [hread] at hserve
    rw [hcall hserve]
    exact .unread hsame ⟨.of_store hgraph, by simp [hread], by simp [hread], rfl, hpending, hwrites⟩
      (by decide : 400 ≤ 500)
  | ok outcome =>
    cases outcome with
    | error e =>
      simp only [hread] at hserve
      rw [hcall hserve]
      refine .unread hsame ⟨.of_store hgraph, by simp [hread], ?_, rfl, hpending, hwrites⟩
        (by decide : 400 ≤ 422)
      intro other hother
      rw [hread] at hother
      cases hother
      rfl
    | ok reading =>
      obtain ⟨memory, hoperate⟩ := Hub.operate_readingText_quiet (Hub.serve listeners 0)
        onlyRemember_listeners.areQuiet
        (h := { app.hub.cancelPending with
          coordinator :=
            { app.hub.cancelPending.coordinator with text := r.text, phase := .readingText } })
        rfl (.replaceAll reading.document) rfl
      simp only [hread, hoperate] at hserve
      rw [hcall hserve]
      exact .read hsame ⟨reading, hread⟩ rfl rfl

theorem flush_cases (app : App) : app.flush.2.status = 200 ∧
    (app.hub.coordinator.pending = none ∧ app.flush.1 = app ∨
      app.hub.coordinator.pending ≠ none ∧ app.flush.1.hub.coordinator.pending = none) := by
  have hcall : ∀ {hub ran}, Hub.serve listeners 1 app.hub .flush = some (hub, .flushed ran) →
      app.call .flush = ({ app with hub }, .flushed ran) := by
    intro hub ran hserved
    rw [call, hserved]
  unfold flush
  by_cases hpending : app.hub.coordinator.pending = none
  · rw [hcall (if_pos (Option.isNone_iff_eq_none.mpr hpending))]
    exact ⟨rfl, .inl ⟨hpending, rfl⟩⟩
  · have hserve : Hub.serve listeners 1 app.hub .flush =
        (Hub.writeText (Hub.serve listeners 0) listeners app.hub.cancelPending).map fun (h, fault) =>
          (h, (fault.map .broken).getD (.flushed true)) :=
      if_neg (mt Option.isNone_iff_eq_none.mp hpending)
    rw [Hub.writeText_eq_told _ onlyRemember_listeners] at hserve
    rw [hcall hserve]
    exact ⟨rfl, .inr ⟨hpending, Hub.pending_cancelPending app.hub⟩⟩

theorem keeps_writeText_iff (r : Request.SetText) (hgranted : (app.writeText r).2.status < 400) :
    app.Keeps (app.writeText r).1 ↔ ¬r.text ≠ app.text := by
  rw [not_not]
  cases app.endsEdit_writeText r with
  | same hsame happ _ =>
    rw [happ]
    exact iff_of_true (.refl app) hsame
  | unread _ _ hstatus => exact absurd hgranted (not_lt.mpr hstatus)
  | read hnew _ htext _ => exact iff_of_false (fun hkeeps => hnew (htext.symm.trans hkeeps.text)) hnew

theorem keeps_flush_iff : app.Keeps app.flush.1 ↔ ¬app.hub.coordinator.pending ≠ none := by
  rw [not_not]
  rcases app.flush_cases with ⟨-, ⟨hpending, happ⟩ | ⟨hpending, hwritten⟩⟩
  · rw [happ]
    exact iff_of_true (.refl app) hpending
  · exact iff_of_false (fun hkeeps => hpending (hkeeps.pending.symm.trans hwritten)) hpending

end Handlers

section Requests

variable {body : Option String}

theorem exists_gives_of_granted [Framework] {α : Type} {rule : Cause → Rule α} {run : α → Response}
    (hgranted : (app.withBody body rule run).answer.status < 400) :
    ∃ value, Gives body rule value ∧ app.withBody body rule run = run value := by
  unfold withBody at hgranted ⊢
  dsimp only at hgranted ⊢
  split at hgranted
  · next answer hcheck =>
    have hanswer : answer = .unparsable := by
      unfold Body.check at hcheck
      split at hcheck <;> cases hcheck
      rfl
    rw [hanswer] at hgranted
    exact absurd hgranted (by decide : ¬400 < 400)
  · next value hcheck => exact ⟨value, hcheck, rfl⟩
  · unfold Body.refusal at hgranted
    dsimp only at hgranted
    split_ifs at hgranted
    · exact absurd hgranted (by decide : ¬422 < 400)
    · exact absurd hgranted (by decide : ¬500 < 400)

/-- Where an operation on a good body changes nothing exactly if nothing is to be changed, neither does a
granted request for it. -/
theorem keeps_withBody_iff [Framework] {α : Type} {rule : Cause → Rule α} {run : α → App × Answer}
    {P : α → Prop}
    (hrun : ∀ value, (run value).2.status < 400 → (app.Keeps (run value).1 ↔ ¬P value))
    (hgranted : (app.withBody body rule fun value => respond (run value)).answer.status < 400) :
    app.Keeps (app.withBody body rule fun value => respond (run value)).app ↔
      ¬∃ value, Gives body rule value ∧ P value := by
  obtain ⟨value, hgives, heq⟩ := exists_gives_of_granted hgranted
  rw [heq] at hgranted ⊢
  refine (hrun value hgranted).trans (not_congr ⟨fun h => ⟨value, hgives, h⟩, ?_⟩)
  rintro ⟨other, hother, h⟩
  cases hgives.symm.trans hother
  exact h

variable [Json.Nesting] [HttpClient] [Framework] [Coercion] {renderer : Renderer}

/-- A granted operation leaves everything as it is exactly if it changes nothing. -/
theorem keeps_perform_iff {operation : Operation}
    (hgranted : (app.perform renderer body operation).answer.status < 400) :
    app.Keeps (app.perform renderer body operation).app ↔ ¬app.Changes body operation := by
  cases operation with
  | writeText =>
    exact (keeps_withBody_iff keeps_writeText_iff hgranted).trans
      (not_congr ⟨fun ⟨_, hbody, h⟩ => .writeText hbody h, fun | .writeText hbody h => ⟨_, hbody, h⟩⟩)
  | setDirection =>
    exact (keeps_withBody_iff keeps_setDirection_iff hgranted).trans
      (not_congr ⟨fun ⟨_, hbody, h⟩ => .setDirection hbody h,
        fun | .setDirection hbody h => ⟨_, hbody, h⟩⟩)
  | select =>
    exact (keeps_withBody_iff keeps_select_iff hgranted).trans
      (not_congr ⟨fun ⟨_, hbody, h⟩ => .select hbody h, fun | .select hbody h => ⟨_, hbody, h⟩⟩)
  | editLabel =>
    exact (keeps_withBody_iff keeps_editLabel_iff hgranted).trans
      (not_congr ⟨fun ⟨_, hbody, h⟩ => .editLabel hbody h, fun | .editLabel hbody h => ⟨_, hbody, h⟩⟩)
  | addNode =>
    exact (keeps_withBody_iff keeps_addNode_iff hgranted).trans
      (not_congr ⟨fun ⟨_, hbody, h⟩ => .addNode hbody h, fun | .addNode hbody h => ⟨_, hbody, h⟩⟩)
  | updateNode id =>
    cases hnode : app.store.node? id with
    | none =>
      have hmissing : ∀ r, ¬(app.updateNode id r).2.status < 400 := by
        intro r
        rw [updateNode, hnode]
        exact (by decide : ¬404 < 400)
      obtain ⟨r, -, heq⟩ := exists_gives_of_granted hgranted
      exact absurd (heq ▸ hgranted : (respond (app.updateNode id r)).answer.status < 400) (hmissing r)
    | some node =>
      exact (keeps_withBody_iff (keeps_updateNode_iff hnode) hgranted).trans
        (not_congr ⟨fun ⟨_, hbody, h⟩ => .updateNode hnode hbody h, fun
          | .updateNode hother hbody h => by cases hnode.symm.trans hother; exact ⟨_, hbody, h⟩⟩)
  | updateEdge id =>
    exact (keeps_withBody_iff (keeps_updateEdge_iff id) hgranted).trans
      (not_congr ⟨fun ⟨_, hbody, h⟩ => .updateEdge hbody h, fun | .updateEdge hbody h => ⟨_, hbody, h⟩⟩)
  | addEdge =>
    refine (keeps_withBody_iff (P := fun _ => True)
      (fun r hr => iff_of_false (not_keeps_addEdge r hr) (not_not.mpr trivial)) hgranted).trans ?_
    obtain ⟨r, hbody, -⟩ := exists_gives_of_granted hgranted
    exact not_congr (iff_of_true ⟨r, hbody, trivial⟩ .addEdge)
  | flush => exact keeps_flush_iff.trans (not_congr ⟨.flush, fun | .flush h => h⟩)
  | deleteNode id => exact iff_of_false (not_keeps_deleteNode id hgranted) (not_not.mpr .deleteNode)
  | deleteEdge id =>
    exact (keeps_deleteEdge_iff id hgranted).trans (not_congr ⟨.deleteEdge, fun | .deleteEdge h => h⟩)
  | exportText =>
    obtain ⟨r, -, heq⟩ := exists_gives_of_granted hgranted
    refine iff_of_true ?_ nofun
    unfold perform
    rw [heq]
    exact .refl app
  | readHealth => exact iff_of_true (.refl app) nofun
  | readText => exact iff_of_true (.refl app) nofun
  | readGraph => exact iff_of_true (.refl app) nofun
  | readNode id => exact iff_of_true (.refl app) nofun
  | readEdge id => exact iff_of_true (.refl app) nofun
  | listShapes => exact iff_of_true (.refl app) nofun
  | listArrows => exact iff_of_true (.refl app) nofun
  | listDirections => exact iff_of_true (.refl app) nofun
  | validate => exact iff_of_true (.refl app) nofun

end Requests

end Flowchart.Server.App
