import Flowchart.Proofs.Diagram.Parsed
import Flowchart.Proofs.Live.Agreement

/-! A new text wins over what is pending, and it stays: whatever was called before, an edit leaves
nothing that could write over it until the content of the graph is changed again. -/
namespace Flowchart.Live

open Diagram (readArranged)

variable {Memory : Type}

/-- The calls that leave the content of the graph and a current text alone: time passes, a sync is
asked for or dropped, nodes are moved or selected, and the same text comes again. -/
inductive Call.Spares (text : String) : Call → Prop
  | advance (ms : Nat) : Spares text (.advance ms)
  | flush : Spares text .flush
  | cancel : Spares text .cancel
  | move (id : String) (position : Position) :
      Spares text (.store (.updateNode id { position := some position }))
  | setSelection (nodes edges : List String) : Spares text (.store (.setSelection nodes edges))
  | setFocus (node : Option String) : Spares text (.store (.setFocus node))
  | setText : Spares text (.setText text)

namespace Hub

/-- The hubs that calls lead to which spare a text. -/
inductive Later (ls : Listeners Memory) (text : String) (h : Hub Memory) : Hub Memory → Prop
  | refl : Later ls text h h
  | step {h₁ h₂ : Hub Memory} {call : Call} {depth : Nat} {reply : Reply} (hl : Later ls text h h₁)
      (hc : call.Spares text) (hs : serve ls depth h₁ call = some (h₂, reply)) : Later ls text h h₂

variable {h h' : Hub Memory}

section Readings

variable {text : String} {reading : Diagram.Reading}

/-- A graph that is still the one of a reading shows the reading as it is. -/
theorem current_eq_self (ha : h.store.IsAligned) (hd : h.store.document = reading.document) :
    h.current reading = reading := by
  have hnodes : reading.document.nodes.mapValues (fun id node => (h.store.node? id).getD node) =
      reading.document.nodes := by
    refine Keyed.ext_find? (Keyed.keys_mapValues _ _) fun id => ?_
    rw [Keyed.find?_mapValues, Store.node?, hd, Document.node?]
    cases reading.document.nodes.find? id <;> rfl
  have hedges : reading.document.edges.map (fun e => (h.store.edge? e.id).getD e) =
      reading.document.edges := by
    refine (List.map_congr_left fun e he => ?_).trans (List.map_id _)
    rw [ha.mem_edges_iff.mpr ⟨hd ▸ he, rfl⟩]
    rfl
  rw [current, hnodes, hedges]

/-- With listeners that do not call back, a new text that parses is answered with its reading. -/
theorem setText_of_read (serve : Service Memory) {ls : Listeners Memory} (hq : ls.AreQuiet)
    (hread : readArranged text = .ok (.ok reading)) (ht : text ≠ h.coordinator.text) :
    ∃ h', setText serve ls h text = some (h', .reading (some (.ok reading))) := by
  obtain ⟨bare, hbare, hplaced⟩ := Diagram.readArranged_eq_reading_iff.mp hread
  have hkeyed := (Diagram.isFlow_of_readArranged hread).2
  have hids : reading.document.HasDistinctIds :=
    ⟨hkeyed, hplaced ▸ (Diagram.isWellFormed_of_readChars hbare).nodup_edgeIds⟩
  obtain ⟨memory, hoperate⟩ := operate_readingText_quiet serve hq
    (h := { h.cancelPending with
      coordinator := { h.cancelPending.coordinator with text := text, phase := .readingText } })
    rfl (.replaceAll reading.document) rfl
  have hcurrent : ∀ h' : Hub Memory,
      h'.store = (h.cancelPending.store.replaceAll reading.document).store →
        h'.current reading = reading := by
    intro h' hstore
    rw [Store.store_replaceAll _ hkeyed] at hstore
    refine current_eq_self (hstore ▸ Store.isAligned_ofDocument hids) ?_
    rw [hstore, Store.document_ofDocument]
  unfold setText readText
  rw [if_neg ht]
  simp only [hread, hoperate]
  exact ⟨_, by rw [hcurrent _ rfl]⟩

end Readings

section Runs

theorem change_of_spares (s : Store) {text : String} {op : StoreOp}
    (hop : Call.Spares text (.store op)) (change : Change) (hc : (op.run s).change = some change) :
    change = .selection ∨ change = .position := by
  cases hop with
  | move id position =>
    have hcontent : ({ position := some position } : Store.NodeUpdate).changesContent = false := rfl
    simp only [StoreOp.run, Store.updateNode, hcontent, Bool.false_eq_true, if_false,
      Option.isSome_some, if_true] at hc
    split_ifs at hc
    · cases hc
    · exact .inr (Option.some.inj hc).symm
  | setSelection nodes edges => exact .inl (Option.some.inj hc).symm
  | setFocus node =>
    unfold StoreOp.run Store.setFocus at hc
    dsimp only at hc
    split_ifs at hc
    · cases hc
    · exact .inl (Option.some.inj hc).symm

variable {ls : Listeners Memory} (hq : ls.AreQuiet) {text : String}

include hq

theorem IsAtRest.operate_of_spares (serve : Service Memory) (hr : h.IsAtRest) {op : StoreOp}
    (hop : Call.Spares text (.store op)) :
    ∃ memory, operate serve ls h op = some
      ({ h with store := (op.run h.store).store, memory := memory }, (op.run h.store).result) := by
  have hspared := change_of_spares h.store hop
  unfold Hub.operate
  dsimp only
  cases hchange : (op.run h.store).change with
  | none => exact ⟨h.memory, rfl⟩
  | some change =>
    obtain ⟨h', memory, hannounce, htakes⟩ := announce_quiet serve hq
      (h := { h with store := (op.run h.store).store }) (.inl hr.phase) change
    refine ⟨memory, ?_⟩
    rw [hannounce]
    rcases hspared change hchange with rfl | rfl
    all_goals
      cases htakes with
      | ignore _ => rfl
      | schedule hc => simp at hc

/-- From rest, a call that spares the current text leads to rest, and nothing is written. -/
theorem HasTaken.serveWith (serve : Service Memory) {h₀ : Hub Memory} (ht : HasTaken text h₀ h)
    {call : Call} (hc : call.Spares text) :
    ∃ h' reply, serveWith serve ls h call = some (h', reply) ∧ HasTaken text h₀ h' := by
  have hstored : ∀ op, Call.Spares text (.store op) → ∃ h' reply,
      Hub.serveWith serve ls h (.store op) = some (h', reply) ∧ HasTaken text h₀ h' := by
    intro op hop
    obtain ⟨memory, hoperate⟩ := ht.operate_of_spares hq serve hop
    refine ⟨{ h with store := (op.run h.store).store, memory := memory },
      .stored (op.run h.store).result, ?_, ⟨ht.live, ht.pending, ht.phase⟩, ht.text, ht.writes⟩
    simp only [Hub.serveWith, hoperate, Option.map_some]
  cases hc with
  | advance ms =>
    have hlive : { h with timers := h.timers.advance ms }.timers.live = [] := ht.live
    exact ⟨_, _, fire_of_live_eq_nil serve ls hlive _, ⟨ht.live, ht.pending, ht.phase⟩, ht.text,
      ht.writes⟩
  | flush => exact ⟨h, _, if_pos (by rw [ht.pending]; rfl), ht⟩
  | cancel =>
    refine ⟨_, _, rfl, ht.isOrderly.cancelPending, ?_, ?_⟩
    · rw [cancelPending_eq]
      exact ht.text
    · rw [cancelPending_eq]
      exact ht.writes
  | move id position => exact hstored _ (.move id position)
  | setSelection nodes edges => exact hstored _ (.setSelection nodes edges)
  | setFocus node => exact hstored _ (.setFocus node)
  | setText => exact ⟨h, _, if_pos ht.text.symm, ht⟩

theorem HasTaken.later {h₀ : Hub Memory} (ht : HasTaken text h₀ h) (hl : Later ls text h h') :
    HasTaken text h₀ h' := by
  induction hl with
  | refl => exact ht
  | @step h₁ h₂ call depth reply _ hc hs ih =>
    cases depth with
    | zero => cases hs
    | succ depth =>
      obtain ⟨served, answer, hserve, htaken⟩ := ih.serveWith hq (serve ls depth) hc
      cases hserve.symm.trans hs
      exact htaken

/-- Whatever was called before, an edit with the current text changes nothing. Any other text becomes
the current one with nothing pending, no listener of the text has a part in that, and calls that spare
the text leave it as it is and write nothing. Graph and error are those the text leads to exactly if no
position breaks its reading off, else they stay as they were. -/
theorem Arises.setText_isAuthoritative (ha : Arises ls h) (depth : Nat) (text : String) :
    (text = h.coordinator.text →
      serve ls (depth + 1) h (.setText text) = some (h, .reading none)) ∧
    (text ≠ h.coordinator.text → ∃ h' reply,
      serve ls (depth + 1) h (.setText text) = some (h', reply) ∧
      (∀ onText, serve ⟨ls.onChange, onText⟩ (depth + 1) h (.setText text) = some (h', reply)) ∧
      HasTaken text h h' ∧
      (Reflects text h.store h' ↔ ¬Diagram.BreaksOff text) ∧
      (Diagram.BreaksOff text → h'.store = h.store ∧
        h'.coordinator.error = h.coordinator.error ∧ ∃ e, reply = .broken (.position e)) ∧
      ∀ h'', Later ls text h' h'' →
        h''.coordinator.text = text ∧ h''.coordinator.writes = h.coordinator.writes) := by
  refine ⟨fun ht => if_pos ht, fun ht => ?_⟩
  obtain ⟨h', reply, hread, htaken, hreflects, hbroken⟩ :=
    (ha.isOrderly hq).readText (serve ls depth) hq text
  have hset : setText (serve ls depth) ls h text = some (h', reply) := (if_neg ht).trans hread
  refine ⟨h', reply, hset, fun onText => ?_, htaken, hreflects, hbroken, fun h'' hl => ?_⟩
  · exact (setText_eq (serve ls depth) (serve ⟨ls.onChange, onText⟩ depth) hq.onChange onText h
      text).trans hset
  · have hlater := htaken.later hq hl
    exact ⟨hlater.text, hlater.writes⟩

end Runs

/-- A node is added, which is to be written after the quiet period. -/
def nodeAdded? : Option (Hub Unit) :=
  (serve noListeners 1 (.start .empty none ())
    (.store (.addNode "A" "A" (.ok .rectangle) none none))).map (·.1)

/-- The pending write gives way to a text that breaks off: the graph stays, and there is no error. -/
theorem not_reflects_brokenText : ∃ h h' e, nodeAdded? = some h ∧ h.coordinator.pending = some 0 ∧
    serve noListeners 1 h (.setText brokenText) = some (h', .broken (.position e)) ∧
    h'.coordinator.text = brokenText ∧ h'.coordinator.error = none ∧ h'.store = h.store ∧
    ¬Reflects brokenText h.store h' := by
  have hquiet : noListeners.AreQuiet := by
    constructor <;> simp [noListeners]
  have hstate : nodeAdded?.map (fun h => (h.coordinator.pending, h.coordinator.error,
      h.coordinator.text)) = some (some 0, none, "") := by decide +kernel
  obtain ⟨h, hserved, hcoordinator⟩ := Option.map_eq_some_iff.mp hstate
  simp only [Prod.mk.injEq] at hcoordinator
  obtain ⟨hpending, herror, htext⟩ := hcoordinator
  have harises : Arises noListeners h := by
    obtain ⟨⟨added, _⟩, hadded, rfl⟩ := Option.map_eq_some_iff.mp hserved
    exact .step (.start .empty none ()) hadded
  have hnew : brokenText ≠ h.coordinator.text := by
    rw [htext]
    decide
  obtain ⟨h', reply, hset, -, htaken, hreflects, hbroken, -⟩ :=
    (Arises.setText_isAuthoritative hquiet harises 0 brokenText).2 hnew
  obtain ⟨hstore, hkept, e, rfl⟩ := hbroken breaksOff_brokenText
  exact ⟨h, h', e, hserved, hpending, hset, htaken.text, hkept.trans herror, hstore,
    fun hr => hreflects.mp hr breaksOff_brokenText⟩

end Hub
end Flowchart.Live
