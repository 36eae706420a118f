import Flowchart.Live.Sync
import Flowchart.Proofs.Live.LastEdge

/-! How operations on the live graph end. Of one that fails nobody is told, and it leaves the graph as
it was, but for the fields that an update has set before it comes to the bad one; one that is announced
as a move or a selection changes places at most. -/
namespace Flowchart.Live

namespace Store

variable {s : Store} {id : String}

/-- The node with the label and the shape of an update, as far as they are given and good. -/
def NodeUpdate.begun (u : NodeUpdate) (node : Node) : Node :=
  { node with
    label := u.label.getD node.label
    shape :=
      match u.shape with
      | some (.ok shape) => shape
      | _ => node.shape }

def EdgeUpdate.begun (u : EdgeUpdate) (edge : Edge) : Edge :=
  { edge with
    label :=
      match u.label with
      | some label => nonEmpty (some label)
      | none => edge.label
    arrow :=
      match u.arrow with
      | some (.ok kind) => kind
      | _ => edge.arrow }

section Change

theorem changeNode_eq_self_iff {f : Node → Node} :
    s.changeNode id f = s ↔ ∀ node, s.node? id = some node → f node = node := by
  have hnodes : s.document.nodes.modify id f = s.document.nodes ↔ ∀ node, s.node? id = some node →
      f node = node := Keyed.modify_eq_self_iff
  rw [← hnodes]
  constructor
  · exact fun h => congrArg (·.document.nodes) h
  · intro h
    rw [changeNode, h]
    rfl

theorem changeNode_changeNode (f g : Node → Node) :
    (s.changeNode id f).changeNode id g = s.changeNode id (g ∘ f) := by
  have hnodes := Keyed.modify_modify s.document.nodes id f g
  rw [changeNode, changeNode, changeNode, ← hnodes]
  rfl

theorem changeEdge_eq_self_iff (h : s.IndexesLast) {f : Edge → Edge} :
    s.changeEdge id f = s ↔ ∀ edge, s.edge? id = some edge → f edge = edge := by
  have hindex : s.edgeIndex.modify id f = s.edgeIndex ↔ ∀ edge, s.edge? id = some edge →
      f edge = edge := Keyed.modify_eq_self_iff
  constructor
  · exact fun heq => hindex.mp (congrArg (·.edgeIndex) heq)
  · intro hkeep
    have hedges : changeLast id f s.document.edges = s.document.edges :=
      changeLast_eq_self fun e he => hkeep e ((h id).trans he)
    rw [changeEdge, hedges, hindex.mpr hkeep]
    rfl

theorem changeEdge_changeEdge {f : Edge → Edge} (hf : ∀ e, (f e).id = e.id) (g : Edge → Edge) :
    (s.changeEdge id f).changeEdge id g = s.changeEdge id (g ∘ f) := by
  have hedges : changeLast id g (changeLast id f s.document.edges) =
      changeLast id (g ∘ f) s.document.edges := changeLast_changeLast hf _
  have hindex := Keyed.modify_modify s.edgeIndex id f g
  rw [changeEdge, changeEdge, changeEdge, ← hedges, ← hindex]
  rfl

end Change

end Store

namespace StoreOp

variable {s : Store} {op : StoreOp} {e : StoreError}

/-- The graph as the operation leaves it where it fails. -/
def leave (s : Store) : StoreOp → Store
  | updateNode id update => s.changeNode id update.begun
  | updateEdge id update => s.changeEdge id update.begun
  | _ => s

/-- What the operation sets before it can fail is set already. -/
def BeginsNothing (s : Store) : StoreOp → Prop
  | updateNode id update => ∀ node, s.node? id = some node → update.begun node = node
  | updateEdge id update => ∀ edge, s.edge? id = some edge → update.begun edge = edge
  | _ => True

theorem leave_eq_self_iff (h : s.IndexesLast) (op : StoreOp) :
    op.leave s = s ↔ op.BeginsNothing s := by
  cases op with
  | updateNode id update => exact Store.changeNode_eq_self_iff
  | updateEdge id update => exact Store.changeEdge_eq_self_iff h
  | _ => exact iff_of_true rfl trivial

/-- An update asks for nothing that is none of the choices. Other operations check what they are asked
for before they begin. -/
def HasGoodChoices : StoreOp → Prop
  | updateNode _ update =>
    (∀ bad, update.shape ≠ some (.error bad)) ∧ ∀ errors, update.style ≠ some (.error errors)
  | updateEdge _ update =>
    (∀ bad, update.arrow ≠ some (.error bad)) ∧ ∀ errors, update.style ≠ some (.error errors)
  | _ => True

/-- How an operation ends: what it is about is not there, or it fails, or there is nothing to do, or it
is done and announced. A move and a selection change places at most. -/
inductive Outcome (s : Store) (op : StoreOp) : Effect → Prop
  | missing : Outcome s op (s.unchanged (.ok false))
  | failed {t : Store} {e : StoreError} (hleave : s.IndexesLast → t = op.leave s)
      (hgood : op.HasGoodChoices → t = s) : Outcome s op (t.unchanged (.error e))
  | idle : Outcome s op (s.unchanged (.ok true))
  | announced {t : Store} {change : Change}
      (hplaces : change = .selection ∨ change = .position →
        t.document.unplaced = s.document.unplaced) : Outcome s op (t.changed change)

namespace Outcome

theorem refused (hleave : op.leave s = s) : Outcome s op (s.unchanged (.error e)) :=
  .failed (fun _ => hleave.symm) fun _ => rfl

theorem updateNode (s : Store) (id : String) (u : Store.NodeUpdate) :
    Outcome s (.updateNode id u) (s.updateNode id u) := by
  obtain ⟨label, shape, style, position⟩ := u
  unfold Store.updateNode
  by_cases hn : (s.node? id).isNone
  · rw [if_pos hn]
    exact .missing
  rw [if_neg hn]
  by_cases hc : Store.NodeUpdate.changesContent ⟨label, shape, style, position⟩
  · -- The label is set before shape and style are looked at, and a bad one does not take it back.
    extract_lets s₁
    have hlabel : s₁ = s.changeNode id (Store.NodeUpdate.begun { label := label }) := by
      unfold s₁
      cases label with
      | none => exact (Store.changeNode_eq_self_iff.mpr fun _ _ => rfl).symm
      | some label => rfl
    clear_value s₁
    subst hlabel
    simp only [hc, if_true]
    rcases shape with _ | bad | shape
    · rcases style with _ | errors | patch
      · exact .announced (by simp)
      · exact .failed (fun _ => rfl) fun hgood => absurd rfl (hgood.2 errors)
      · exact .announced (by simp)
    · exact .failed (fun _ => rfl) fun hgood => absurd rfl (hgood.1 bad)
    · rcases style with _ | errors | patch
      · exact .announced (by simp)
      · exact .failed (fun _ => Store.changeNode_changeNode _ _) fun hgood =>
          absurd rfl (hgood.2 errors)
      · exact .announced (by simp)
  · simp only [Store.NodeUpdate.changesContent, Bool.or_eq_true, not_or, Bool.not_eq_true,
      Option.isSome_eq_false_iff, Option.isNone_iff_eq_none] at hc
    obtain ⟨⟨rfl, rfl⟩, rfl⟩ := hc
    cases position with
    | none => exact .idle
    | some position => exact .announced fun _ => Store.unplaced_changeNode_position s id position

theorem updateEdge (s : Store) (id : String) (u : Store.EdgeUpdate) :
    Outcome s (.updateEdge id u) (s.updateEdge id u) := by
  obtain ⟨label, arrow, style⟩ := u
  unfold Store.updateEdge
  by_cases hn : (s.edge? id).isNone
  · rw [if_pos hn]
    exact .missing
  rw [if_neg hn]
  extract_lets s₁
  have hlabel : s.IndexesLast →
      s₁ = s.changeEdge id (Store.EdgeUpdate.begun ⟨label, none, none⟩) := by
    intro hs
    unfold s₁
    cases label with
    | none => exact ((Store.changeEdge_eq_self_iff hs).mpr fun _ _ => rfl).symm
    | some label => rfl
  clear_value s₁
  rcases arrow with _ | bad | kind
  · rcases style with _ | errors | patch
    · exact .announced (by simp)
    · exact .failed hlabel fun hgood => absurd rfl (hgood.2 errors)
    · exact .announced (by simp)
  · exact .failed hlabel fun hgood => absurd rfl (hgood.1 bad)
  · rcases style with _ | errors | patch
    · exact .announced (by simp)
    · refine .failed (fun hs => ?_) fun hgood => absurd rfl (hgood.2 errors)
      rw [hlabel hs]
      exact Store.changeEdge_changeEdge (f := Store.EdgeUpdate.begun ⟨label, none, none⟩)
        (fun _ => rfl) _
    · exact .announced (by simp)

theorem run (s : Store) (op : StoreOp) : Outcome s op (op.run s) := by
  cases op with
  | addNode id label shape position style =>
    unfold StoreOp.run Store.addNode
    dsimp only
    split
    · exact .refused rfl
    · exact .refused rfl
    · exact .announced (by simp)
  | updateNode id update => exact .updateNode s id update
  | deleteNode id =>
    unfold StoreOp.run Store.deleteNode
    dsimp only
    split
    · exact .missing
    · exact .announced (by simp)
  | addEdge id source target label arrow =>
    unfold StoreOp.run Store.addEdge
    dsimp only
    split_ifs
    · exact .refused rfl
    · exact .refused rfl
    · exact .refused rfl
    · cases arrow with
      | error bad => exact .refused rfl
      | ok kind => exact .announced (by simp)
  | updateEdge id update => exact .updateEdge s id update
  | deleteEdge id =>
    unfold StoreOp.run Store.deleteEdge
    dsimp only
    split
    · exact .missing
    · exact .announced (by simp)
  | replaceAll document => exact .announced (by simp)
  | setDirection direction =>
    cases direction with
    | error bad => exact .refused rfl
    | ok direction => exact .announced (by simp)
  | setSelection nodes edges => exact .announced fun _ => rfl
  | setFocus node =>
    unfold StoreOp.run Store.setFocus
    dsimp only
    split_ifs
    · exact .missing
    · exact .announced fun _ => rfl

end Outcome

theorem run_of_error (hs : s.IndexesLast) (h : (op.run s).result = .error e) :
    op.run s = ⟨op.leave s, none, .error e⟩ := by
  have hout := Outcome.run s op
  generalize op.run s = effect at h hout ⊢
  cases hout with
  | missing => cases h
  | failed hleave _ =>
    cases h
    rw [hleave hs]
    rfl
  | idle => cases h
  | announced _ => cases h

/-- An operation with good choices that fails, or does not find what it is about, changes nothing. -/
theorem run_of_result_ne (hgood : op.HasGoodChoices) (h : (op.run s).result ≠ .ok true) :
    op.run s = s.unchanged (op.run s).result := by
  have hout := Outcome.run s op
  generalize op.run s = effect at h hout ⊢
  cases hout with
  | missing => rfl
  | failed _ hkept =>
    rw [hkept hgood]
    rfl
  | idle => exact absurd rfl h
  | announced _ => exact absurd rfl h

theorem result_of_change (hc : (op.run s).change ≠ none) : (op.run s).result = .ok true := by
  have hout := Outcome.run s op
  generalize op.run s = effect at hc hout ⊢
  cases hout with
  | missing => exact absurd rfl hc
  | failed _ _ => exact absurd rfl hc
  | idle => rfl
  | announced _ => rfl

/-- Nothing but places has changed where no other change is announced. -/
theorem unplaced_run (hresult : ∃ found, (op.run s).result = .ok found)
    (hchange : ∀ change ∈ (op.run s).change, change = .selection ∨ change = .position) :
    (op.run s).store.document.unplaced = s.document.unplaced := by
  have hout := Outcome.run s op
  generalize op.run s = effect at hresult hchange hout ⊢
  cases hout with
  | missing => rfl
  | failed _ _ => exact nomatch hresult
  | idle => rfl
  | announced hplaces => exact hplaces (hchange _ rfl)

end StoreOp

namespace Hub

variable {Memory : Type} {h : Hub Memory} {op : StoreOp} {e : StoreError}

/-- An operation that fails calls no listener and leaves everything but the graph as it is; and the
graph as well exactly if it begins with nothing new. -/
theorem serve_store_of_error (ls : Listeners Memory) (depth : Nat) (hs : h.store.Arises)
    (hfail : (op.run h.store).result = .error e) :
    serve ls (depth + 1) h (.store op) =
        some ({ h with store := op.leave h.store }, .stored (.error e)) ∧
      (op.leave h.store = h.store ↔ op.BeginsNothing h.store) := by
  have hlast := hs.indexesLast
  refine ⟨?_, StoreOp.leave_eq_self_iff hlast op⟩
  simp only [serve, serveWith, operate, StoreOp.run_of_error hlast hfail, announce, Option.map_some]

/-- The first node is to get another label and a shape that is none. -/
def badShapeUpdate : StoreOp :=
  .updateNode "A" { label := some "New", shape := some (.error ⟨"'blob'", "NodeShape"⟩) }

/-- Listeners that count what they are told. -/
def countingListeners : Listeners Nat :=
  ⟨[fun _ _ => .remember (· + 1) .done], [fun _ _ => .remember (· + 1) .done]⟩

/-- The update fails and nobody is told, but the label has changed. -/
theorem serve_badShapeUpdate : ∃ h : Hub Nat,
    serve countingListeners 1 (.start Store.loopDocument none 0) (.store badShapeUpdate) =
        some (h, .stored (.error (.badChoice ⟨"'blob'", "NodeShape"⟩))) ∧
      h.memory = 0 ∧ (h.store.node? "A").map Node.label = some "New" ∧
        h.store ≠ .ofDocument Store.loopDocument := by
  have hfail : (badShapeUpdate.run (.ofDocument Store.loopDocument)).result =
      .error (.badChoice ⟨"'blob'", "NodeShape"⟩) := rfl
  obtain ⟨hserve, hself⟩ := serve_store_of_error (h := .start Store.loopDocument none 0)
    countingListeners 0 (.start Store.loopDocument) hfail
  have hlabel : ((badShapeUpdate.leave (.ofDocument Store.loopDocument)).node? "A").map Node.label =
      some "New" := by decide +kernel
  have hnew : ¬badShapeUpdate.BeginsNothing (.ofDocument Store.loopDocument) := by
    intro hkept
    have hnode := hkept (.stub "A") (by decide +kernel)
    exact absurd (congrArg Node.label hnode) (by decide)
  exact ⟨_, hserve, rfl, hlabel, fun heq => hnew (hself.mp heq)⟩

end Hub
end Flowchart.Live
