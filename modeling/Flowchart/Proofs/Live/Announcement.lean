import Flowchart.Proofs.Live.Failure
import Flowchart.Proofs.Live.Pending

/-! Every change that shows in the text is announced, once, and as a change of what it touched. An
operation that announces a move or a selection, or nothing, leaves the text of the graph as it is. -/
namespace Flowchart.Live

/-- The change is not one of places, selection or focus only. -/
def Change.ShowsInText (change : Change) : Prop :=
  change = .nodes ∨ change = .edges ∨ change = .direction ∨ change = .replaced

theorem Change.showsInText_iff {change : Change} :
    change.ShowsInText ↔ ¬(change = .selection ∨ change = .position) := by
  cases change <;> simp [ShowsInText]

namespace Store

@[simp] theorem result_unchanged (s : Store) (result : Except StoreError Bool) :
    (s.unchanged result).result = result := rfl

@[simp] theorem result_changed (s : Store) (change : Change) :
    (s.changed change).result = .ok true := rfl

/-- Nothing has changed but the place of a node. -/
structure MovesOnly (s : Store) (id : String) (position : Position) (t : Store) : Prop where
  rest : t = { s with document := { s.document with nodes := t.document.nodes } }
  keys : t.document.nodes.keys = s.document.nodes.keys
  node? : ∀ k, t.node? k = if k = id then
    (s.node? k).map fun node => { node with position := some position } else s.node? k

theorem movesOnly_updateNode (s : Store) (id : String) (position : Position) :
    MovesOnly s id position (s.updateNode id { position := some position }).store := by
  by_cases hn : (s.node? id).isNone
  · have hsame : (s.updateNode id { position := some position }).store = s := by
      unfold updateNode
      rw [if_pos hn]
      rfl
    rw [hsame]
    refine ⟨rfl, rfl, fun k => ?_⟩
    split_ifs with hk
    · rw [hk, Option.isNone_iff_eq_none.mp hn, Option.map_none]
    · rfl
  · have hplaced : (s.updateNode id { position := some position }).store =
        s.changeNode id fun node => { node with position := some position } := by
      unfold updateNode
      rw [if_neg hn]
      rfl
    rw [hplaced]
    exact ⟨rfl, Keyed.keys_modify _ _ _, fun k => Keyed.find?_modify _ _ _ k⟩

end Store

namespace StoreOp

variable {s : Store} {op : StoreOp}

/-- The operation is to change, to delete or to focus something that is not there. -/
def IsAboutUnknown (s : Store) : StoreOp → Prop
  | updateNode id _ => s.node? id = none
  | deleteNode id => s.node? id = none
  | updateEdge id _ => ∀ e ∈ s.document.edges, e.id ≠ id
  | deleteEdge id => ∀ e ∈ s.document.edges, e.id ≠ id
  | setFocus node => ∃ id ∈ node, s.node? id = none
  | _ => False

theorem write_run (hresult : ∃ found, (op.run s).result = .ok found)
    (hchange : ∀ change ∈ (op.run s).change, change = .selection ∨ change = .position) :
    Diagram.write (op.run s).store.document = Diagram.write s.document :=
  Diagram.write_eq_of_unplaced (unplaced_run hresult hchange)

theorem exists_change_of_write_ne (hresult : ∃ found, (op.run s).result = .ok found)
    (hne : Diagram.write (op.run s).store.document ≠ Diagram.write s.document) :
    ∃ change, (op.run s).change = some change ∧ change.ShowsInText := by
  by_contra hnone
  refine hne (write_run hresult fun change hc => ?_)
  by_contra hother
  exact hnone ⟨change, hc, Change.showsInText_iff.mpr hother⟩

theorem run_of_missing (h : (op.run s).result = .ok false) : op.run s = s.unchanged (.ok false) := by
  have hout := Outcome.run s op
  generalize op.run s = effect at h hout ⊢
  cases hout with
  | missing => rfl
  | failed _ _ => cases h
  | idle => cases h
  | announced _ => cases h

theorem edge?_eq_none_iff (h : s.IndexesLast) {id : String} :
    s.edge? id = none ↔ ∀ e ∈ s.document.edges, e.id ≠ id := by
  rw [h id, Store.lastEdge?, List.find?_eq_none]
  simp

theorem result_updateNode_ne {id : String} (hn : ¬(s.node? id).isNone) (u : Store.NodeUpdate) :
    (s.updateNode id u).result ≠ .ok false := by
  unfold Store.updateNode
  rw [if_neg hn]
  extract_lets s₁
  split
  · simp
  extract_lets s₂
  split
  · simp
  extract_lets s₃ s₄
  split_ifs <;> simp

theorem result_updateEdge_ne {id : String} (hn : ¬(s.edge? id).isNone) (u : Store.EdgeUpdate) :
    (s.updateEdge id u).result ≠ .ok false := by
  unfold Store.updateEdge
  rw [if_neg hn]
  extract_lets s₁
  split
  · simp
  extract_lets s₂
  split <;> simp

/-- The operations that answer that nothing was there are those about something unknown. -/
theorem result_eq_missing_iff (h : s.IndexesLast) :
    (op.run s).result = .ok false ↔ op.IsAboutUnknown s := by
  cases op with
  | addNode id label shape position style =>
    refine iff_of_false ?_ not_false
    change (s.addNode id label shape position style).result ≠ _
    unfold Store.addNode
    split <;> simp
  | updateNode id update =>
    change (s.updateNode id update).result = _ ↔ s.node? id = none
    rw [← Option.isNone_iff_eq_none]
    by_cases hn : (s.node? id).isNone
    · refine iff_of_true ?_ hn
      unfold Store.updateNode
      rw [if_pos hn, Store.result_unchanged]
    · exact iff_of_false (result_updateNode_ne hn update) hn
  | deleteNode id =>
    change (s.deleteNode id).result = _ ↔ s.node? id = none
    rw [← Option.isNone_iff_eq_none]
    unfold Store.deleteNode
    split_ifs with hn <;> simp [hn]
  | addEdge id source target label arrow =>
    refine iff_of_false ?_ not_false
    change (s.addEdge id source target label arrow).result ≠ _
    unfold Store.addEdge
    split_ifs
    · simp
    · simp
    · simp
    · split <;> simp
  | updateEdge id update =>
    change (s.updateEdge id update).result = _ ↔ ∀ e ∈ s.document.edges, e.id ≠ id
    rw [← edge?_eq_none_iff h, ← Option.isNone_iff_eq_none]
    by_cases hn : (s.edge? id).isNone
    · refine iff_of_true ?_ hn
      unfold Store.updateEdge
      rw [if_pos hn, Store.result_unchanged]
    · exact iff_of_false (result_updateEdge_ne hn update) hn
  | deleteEdge id =>
    change (s.deleteEdge id).result = _ ↔ ∀ e ∈ s.document.edges, e.id ≠ id
    rw [← edge?_eq_none_iff h]
    unfold Store.deleteEdge
    split <;> simp [*]
  | replaceAll document => exact iff_of_false (by simp [run, Store.replaceAll]) not_false
  | setDirection direction =>
    refine iff_of_false ?_ not_false
    change (s.setDirection direction).result ≠ _
    unfold Store.setDirection
    split <;> simp
  | setSelection nodes edges => exact iff_of_false (by simp [run, Store.setSelection]) not_false
  | setFocus node =>
    change (s.setFocus node).result = _ ↔ ∃ id ∈ node, s.node? id = none
    have hunknown : (node.any fun id => !s.document.nodes.contains id) = true ↔
        ∃ id ∈ node, s.node? id = none := by
      cases node with
      | none => simp
      | some id => simp [Store.node?, Document.node?, Keyed.find?_eq_none_iff, ← Keyed.contains_iff]
    rw [← hunknown]
    unfold Store.setFocus
    split_ifs with hn <;> simp [hn]

end StoreOp

namespace Hub

section Served

variable {Memory : Type} {ls : Listeners Memory} (serve : Service Memory)

theorem store_cancelPending (h : Hub Memory) : h.cancelPending.store = h.store := by
  rw [cancelPending_eq]

theorem Takes.store_eq {h h' : Hub Memory} {change : Change} (ht : Takes h change h') :
    h'.store = h.store := by
  cases ht with
  | ignore _ => rfl
  | write memory => exact store_cancelPending h
  | schedule _ => exact store_cancelPending h

theorem exists_takeChange_quiet (hq : ls.AreQuiet) (h : Hub Memory) (change : Change) :
    ∃ h', takeChange serve ls change h = some h' ∧ h'.store = h.store := by
  cases hp : h.coordinator.phase with
  | readingText =>
    simp only [takeChange, hp]
    exact ⟨_, rfl, rfl⟩
  | writingText =>
    simp only [takeChange, hp]
    exact ⟨_, rfl, rfl⟩
  | idle =>
    obtain ⟨h', htake, htakes⟩ := takeChange_quiet serve hq (.inl hp) change
    exact ⟨h', htake, htakes.store_eq⟩
  | waiting =>
    obtain ⟨h', htake, htakes⟩ := takeChange_quiet serve hq (.inr hp) change
    exact ⟨h', htake, htakes.store_eq⟩

theorem exists_operate_quiet (hq : ls.AreQuiet) (h : Hub Memory) (op : StoreOp) :
    ∃ h', operate serve ls h op = some (h', (op.run h.store).result) ∧
      h'.store = (op.run h.store).store ∧
      ((op.run h.store).change = none → h' = { h with store := (op.run h.store).store }) := by
  unfold operate
  dsimp only
  generalize (op.run h.store).store = s
  cases (op.run h.store).change with
  | none => exact ⟨_, rfl, rfl, fun _ => rfl⟩
  | some change =>
    obtain ⟨h', htake, hstore⟩ := exists_takeChange_quiet serve hq { h with store := s } change
    obtain ⟨memory, htell⟩ := tellChange_quiet serve hq.onChange change h'
    exact ⟨{ h' with memory := memory }, by simp only [announce, htake, htell, Option.map_some],
      hstore, by simp⟩

end Served

/-- Listeners of the graph that note what they are told, and listeners of the text. All may raise,
depending on what they see. -/
def noting (onChange : List (Hub (List Change) → Change → Option Fault))
    (onText : List (Hub (List Change) → String → Option Fault)) : Listeners (List Change) where
  onChange := onChange.map fun fault h change =>
    .remember (· ++ [change]) ((fault h change).elim .done .raise)
  onText := onText.map fun fault h text => (fault h text).elim .done .raise

section Noting

variable (onChange : List (Hub (List Change) → Change → Option Fault))
  (onText : List (Hub (List Change) → String → Option Fault))

theorem isQuiet_elim_raise (fault : Option Fault) :
    (fault.elim .done .raise : Script (List Change)).IsQuiet := by
  cases fault with
  | none => exact .done
  | some fault => exact .raise fault

theorem areQuiet_noting : (noting onChange onText).AreQuiet := by
  constructor
  · intro listener hl h change
    obtain ⟨fault, -, rfl⟩ := List.mem_map.mp hl
    exact .remember (isQuiet_elim_raise _)
  · intro listener hl h text
    obtain ⟨fault, -, rfl⟩ := List.mem_map.mp hl
    exact isQuiet_elim_raise _

variable (serve : Service (List Change))

theorem runScript_elim_raise (fault : Option Fault) (h : Hub (List Change)) :
    runScript serve h (fault.elim .done .raise) = some (h, fault) := by
  cases fault <;> rfl

/-- Every listener of the graph is told of a change once, whether or not others raise. -/
theorem tellChange_noting (change : Change) (h : Hub (List Change)) :
    tellChange serve change (noting onChange onText).onChange h =
      some { h with memory := h.memory ++ List.replicate onChange.length change } := by
  unfold noting
  dsimp only
  induction onChange generalizing h with
  | nil => simp [tellChange]
  | cons fault rest ih =>
    rw [List.map_cons, tellChange, runScript, runScript_elim_raise]
    dsimp only
    rw [ih, List.length_cons, List.replicate_succ, List.append_assoc]
    rfl

theorem tellText_noting (text : String) (h : Hub (List Change)) :
    ∃ fault, tellText serve text (noting onChange onText).onText h = some (h, fault) := by
  unfold noting
  dsimp only
  induction onText with
  | nil => exact ⟨none, rfl⟩
  | cons fault rest ih =>
    rw [List.map_cons, tellText, runScript_elim_raise]
    cases fault h text with
    | none => exact ih
    | some raised => exact ⟨some raised, rfl⟩

variable {onChange onText serve}

theorem memory_writeText {h h' : Hub (List Change)} {fault : Option Fault}
    (hw : writeText serve (noting onChange onText) h = some (h', fault)) :
    h'.memory = h.memory := by
  unfold writeText at hw
  dsimp only at hw
  split_ifs at hw
  · cases hw
    rfl
  · obtain ⟨raised, htell⟩ := tellText_noting onChange onText serve
      (Diagram.write h.store.document)
      { h with coordinator :=
        { h.coordinator with
          phase := .writingText
          writes := h.coordinator.writes + 1
          text := Diagram.write h.store.document
          error := none } }
    rw [htell] at hw
    cases hw
    rfl

theorem memory_cancelPending (h : Hub (List Change)) : h.cancelPending.memory = h.memory := by
  rw [cancelPending_eq]

theorem memory_takeChange {change : Change} {h h' : Hub (List Change)}
    (ht : takeChange serve (noting onChange onText) change h = some h') :
    h'.memory = h.memory := by
  unfold takeChange at ht
  split at ht
  · cases ht
    rfl
  · cases ht
    rfl
  · cases ht
    rfl
  · cases ht
    rfl
  · obtain ⟨⟨written, fault⟩, hwrite, rfl⟩ := Option.map_eq_some_iff.mp ht
    exact (memory_writeText hwrite).trans (memory_cancelPending h)
  · cases ht
    exact memory_cancelPending h

end Noting

variable (onChange : List (Hub (List Change) → Change → Option Fault))
  (onText : List (Hub (List Change) → String → Option Fault)) {h : Hub (List Change)} {op : StoreOp}

/-- Of what an operation announces every listener is told once, and of nothing else. -/
theorem serve_store_noting (depth : Nat) (h : Hub (List Change)) (op : StoreOp) :
    ∃ h', serve (noting onChange onText) (depth + 1) h (.store op) =
        some (h', .stored (op.run h.store).result) ∧
      h'.store = (op.run h.store).store ∧
      h'.memory = h.memory ++
        (op.run h.store).change.toList.flatMap (List.replicate onChange.length) ∧
      ((op.run h.store).change = none → h' = { h with store := (op.run h.store).store }) := by
  obtain ⟨h', hoperate, hstore, hsame⟩ :=
    exists_operate_quiet (serve (noting onChange onText) depth) (areQuiet_noting onChange onText) h op
  refine ⟨h', by rw [serve, serveWith, hoperate]; rfl, hstore, ?_, hsame⟩
  cases hc : (op.run h.store).change with
  | none =>
    rw [hsame hc]
    exact (List.append_nil _).symm
  | some change =>
    obtain ⟨taken, htake, -⟩ := exists_takeChange_quiet (serve (noting onChange onText) depth)
      (areQuiet_noting onChange onText) { h with store := (op.run h.store).store } change
    unfold operate at hoperate
    simp only [hc, announce, htake, tellChange_noting, Option.map_some, Option.some.injEq,
      Prod.mk.injEq, and_true] at hoperate
    rw [← hoperate, memory_takeChange htake, Option.toList_some, List.flatMap_singleton]

/-- In whatever state, an operation that succeeds announces one change or none, to every listener once.
If it shows in the text, the change is one of those that do; if none of those is announced, the text is
as before, and a move changes nothing but the place. What is about something unknown is answered so,
does nothing and is not announced. -/
theorem announces_store (depth : Nat) (hs : h.store.Arises) {found : Bool}
    (hresult : (op.run h.store).result = .ok found) :
    ∃ h', serve (noting onChange onText) (depth + 1) h (.store op) = some (h', .stored (.ok found)) ∧
      h'.store = (op.run h.store).store ∧
      h'.memory = h.memory ++
        (op.run h.store).change.toList.flatMap (List.replicate onChange.length) ∧
      (Diagram.write h'.store.document ≠ Diagram.write h.store.document →
        ∃ change, (op.run h.store).change = some change ∧ change.ShowsInText) ∧
      ((∀ change ∈ (op.run h.store).change, change = .selection ∨ change = .position) →
        Diagram.write h'.store.document = Diagram.write h.store.document) ∧
      (∀ id position, op = .updateNode id { position := some position } →
        Store.MovesOnly h.store id position h'.store) ∧
      (found = false ↔ op.IsAboutUnknown h.store) ∧
      (found = false → (op.run h.store).change = none ∧ h' = h) := by
  obtain ⟨h', hserve, hstore, hmemory, hsame⟩ :=
    serve_store_noting onChange onText depth h op
  have hok : ∃ found, (op.run h.store).result = .ok found := ⟨found, hresult⟩
  rw [hresult] at hserve
  refine ⟨h', hserve, hstore, hmemory, ?_, ?_, ?_, ?_, ?_⟩
  · rw [hstore]
    exact StoreOp.exists_change_of_write_ne hok
  · rw [hstore]
    exact StoreOp.write_run hok
  · rintro id position rfl
    rw [hstore]
    exact Store.movesOnly_updateNode h.store id position
  · rw [← StoreOp.result_eq_missing_iff hs.indexesLast, hresult, Except.ok.injEq]
  · rintro rfl
    have hrun := StoreOp.run_of_missing hresult
    have hchange : (op.run h.store).change = none := by rw [hrun]; rfl
    refine ⟨hchange, ?_⟩
    rw [hsame hchange, hrun]
    rfl

/-- The first node gets another label and another place. -/
def relabelAndMove : StoreOp :=
  .updateNode "A" { label := some "New", position := some .origin }

/-- Three listeners, of which the second raises. -/
def raisingSecond : List (Hub (List Change) → Change → Option Fault) :=
  [fun _ _ => none, fun _ _ => some .listener, fun _ _ => none]

/-- All three listeners are told of the one change, which shows in the text. -/
theorem announces_relabelAndMove : ∃ h : Hub (List Change),
    serve (noting raisingSecond []) 1 (.start Store.loopDocument none []) (.store relabelAndMove) =
        some (h, .stored (.ok true)) ∧
      Diagram.write h.store.document ≠ Diagram.write Store.loopDocument ∧
      h.memory = [.nodes, .nodes, .nodes] := by
  have hresult : (relabelAndMove.run (.ofDocument Store.loopDocument)).result = .ok true := rfl
  obtain ⟨h, hserve, hstore, hmemory, -⟩ := announces_store (h := .start Store.loopDocument none [])
    raisingSecond [] 0 (.start Store.loopDocument) hresult
  refine ⟨h, hserve, ?_, hmemory⟩
  rw [hstore]
  decide +kernel

end Hub
end Flowchart.Live
