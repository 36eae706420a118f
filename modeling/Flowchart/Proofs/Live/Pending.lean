import Flowchart.Proofs.Diagram.Unplaced
import Flowchart.Proofs.Live.EdgeIndex
import Flowchart.Proofs.Live.Quiet

/-! What is pending between calls. Whatever is called, at most the pending timer is live and no sync is
under way; an edit with a new text leaves nothing pending. -/
namespace Flowchart.Live.Hub

open Diagram (readArranged)

variable {Memory : Type}

/-- What holds between any calls: at most the pending timer is live, and no sync is under way. -/
structure IsOrderly (h : Hub Memory) : Prop where
  timers : ∀ timer ∈ h.timers.live, h.coordinator.pending = some timer.id
  phase : h.coordinator.phase = .idle ∨ h.coordinator.phase = .waiting

/-- Nothing is pending, no timer is live, and the coordinator is idle. -/
structure IsAtRest (h : Hub Memory) : Prop where
  live : h.timers.live = []
  pending : h.coordinator.pending = none
  phase : h.coordinator.phase = .idle

/-- The text is the current one, nothing is pending, and nothing was written since `h`. -/
structure HasTaken (text : String) (h h' : Hub Memory) : Prop extends IsAtRest h' where
  text : h'.coordinator.text = text
  writes : h'.coordinator.writes = h.coordinator.writes

/-- Graph and error are those a text leads to: its own graph and no error, or the graph of before and
why the text is refused. -/
structure Reflects (text : String) (before : Store) (h : Hub Memory) : Prop where
  read : ∀ reading, readArranged text = .ok (.ok reading) →
    h.store.document = reading.document ∧ h.store.selectedNodes = [] ∧
      h.store.selectedEdges = [] ∧ h.store.focus = none ∧ h.coordinator.error = none
  refused : (¬∃ reading, readArranged text = .ok (.ok reading)) →
    h.store = before ∧ ∃ e, readArranged text = .ok (.error e) ∧ h.coordinator.error = some e

/-- The hubs that any calls lead to, where the coordinator was started on a store of any kind. -/
inductive Arises (ls : Listeners Memory) : Hub Memory → Prop
  | start (store : Store) (delay : Delay) (memory : Memory) :
      Arises ls ⟨store, .start delay, .start, memory⟩
  | step {h h' : Hub Memory} {call : Call} {depth : Nat} {reply : Reply} (ha : Arises ls h)
      (hs : serve ls depth h call = some (h', reply)) : Arises ls h'

variable {h h' : Hub Memory}

theorem cancelPending_eq (h : Hub Memory) : h.cancelPending =
    { h with
      timers := h.coordinator.pending.elim h.timers h.timers.remove
      coordinator :=
        { h.coordinator with
          pending := none
          phase := if h.coordinator.phase = .waiting then .idle else h.coordinator.phase } } := by
  obtain ⟨store, ⟨phase, pending, text, error, writes, suppressed, delay⟩, timers, memory⟩ := h
  cases pending <;> cases phase <;> rfl

section Live

theorem fire_of_live_eq_nil (serve : Service Memory) (ls : Listeners Memory)
    (hl : h.timers.live = []) (due : List Timer) : fire serve ls due h = some (h, .done) := by
  induction due with
  | nil => rfl
  | cons timer due ih => simp [fire, Timers.isLive, hl, ih]

variable (ht : ∀ timer ∈ h.timers.live, h.coordinator.pending = some timer.id)
include ht

theorem live_remove_eq_nil {id : Nat} (hp : h.coordinator.pending = some id) :
    (h.timers.remove id).live = [] := by
  unfold Timers.remove
  rw [List.filter_eq_nil_iff]
  intro timer hmem
  have hid := (ht timer hmem).symm.trans hp
  simpa using hid

theorem pending_eq_of_isLive {id : Nat} (hl : h.timers.isLive id) :
    h.coordinator.pending = some id := by
  obtain ⟨timer, hmem, hid⟩ := List.any_eq_true.mp hl
  rw [ht timer hmem, beq_iff_eq.mp hid]

theorem live_cancelPending : h.cancelPending.timers.live = [] := by
  rw [cancelPending_eq]
  cases hp : h.coordinator.pending with
  | none =>
    rw [hp] at ht
    exact List.eq_nil_iff_forall_not_mem.mpr fun timer hmem => nomatch ht timer hmem
  | some id => exact live_remove_eq_nil ht hp

theorem pending_schedule : ∀ timer ∈ h.schedule.timers.live,
    h.schedule.coordinator.pending = some timer.id := by
  intro timer hmem
  change timer ∈ h.cancelPending.timers.live ++ [_] at hmem
  rw [live_cancelPending ht, List.nil_append, List.mem_singleton] at hmem
  rw [hmem]
  rfl

end Live

section Order

theorem isOrderly_start (store : Store) (delay : Delay) (memory : Memory) :
    IsOrderly ⟨store, .start delay, .start, memory⟩ :=
  ⟨by simp [Timers.start], .inl rfl⟩

theorem IsAtRest.isOrderly (hr : h.IsAtRest) : h.IsOrderly :=
  ⟨by simp [hr.live], .inl hr.phase⟩

theorem IsOrderly.cancelPending (ho : h.IsOrderly) : h.cancelPending.IsAtRest := by
  refine ⟨live_cancelPending ho.timers, ?_, ?_⟩
  · rw [cancelPending_eq]
  · rw [cancelPending_eq]
    rcases ho.phase with hp | hp <;> simp [hp]

theorem IsOrderly.schedule (ho : h.IsOrderly) : h.schedule.IsOrderly :=
  ⟨pending_schedule ho.timers, .inr rfl⟩

variable (serve : Service Memory) {ls : Listeners Memory} (hq : ls.AreQuiet)
include hq

theorem exists_isAtRest_of_writeText (hl : h.timers.live = []) (hp : h.coordinator.pending = none) :
    ∃ h' fault, writeText serve ls h = some (h', fault) ∧ h'.IsAtRest := by
  obtain ⟨memory, fault, hwrite⟩ := writeText_quiet serve hq h
  exact ⟨h.written memory, fault, hwrite, hl, hp, rfl⟩

theorem IsOrderly.takeChange (ho : h.IsOrderly) (change : Change) :
    ∃ h', takeChange serve ls change h = some h' ∧ h'.IsOrderly := by
  obtain ⟨h', htake, htakes⟩ := takeChange_quiet serve hq ho.phase change
  refine ⟨h', htake, ?_⟩
  cases htakes with
  | ignore _ => exact ho
  | write memory =>
    have hcancelled := ho.cancelPending
    exact IsAtRest.isOrderly ⟨hcancelled.live, hcancelled.pending, rfl⟩
  | schedule _ => exact ho.schedule

theorem IsOrderly.operate (ho : h.IsOrderly) (op : StoreOp) :
    ∃ h' result, operate serve ls h op = some (h', result) ∧ h'.IsOrderly := by
  unfold Hub.operate
  dsimp only
  generalize (op.run h.store).store = s
  have hs : IsOrderly { h with store := s } := ⟨ho.timers, ho.phase⟩
  cases (op.run h.store).change with
  | none => exact ⟨_, _, rfl, hs⟩
  | some change =>
    obtain ⟨h', htake, horderly⟩ := hs.takeChange serve hq change
    obtain ⟨memory, htell⟩ := tellChange_quiet serve hq.onChange change h'
    refine ⟨{ h' with memory := memory }, (op.run h.store).result, ?_, horderly.timers,
      horderly.phase⟩
    simp only [announce, htake, htell, Option.map_some]

theorem IsOrderly.flush (ho : h.IsOrderly) :
    ∃ h' reply, flush serve ls h = some (h', reply) ∧ h'.IsOrderly := by
  unfold Hub.flush
  split_ifs
  · exact ⟨h, _, rfl, ho⟩
  · have hcancelled := ho.cancelPending
    obtain ⟨h', fault, hwrite, hrest⟩ :=
      exists_isAtRest_of_writeText serve hq hcancelled.live hcancelled.pending
    rw [hwrite]
    exact ⟨h', _, rfl, hrest.isOrderly⟩

theorem IsOrderly.fire (ho : h.IsOrderly) (due : List Timer) :
    ∃ h' reply, fire serve ls due h = some (h', reply) ∧ h'.IsOrderly := by
  induction due with
  | nil => exact ⟨h, _, rfl, ho⟩
  | cons timer due ih =>
    unfold Hub.fire
    by_cases hl : h.timers.isLive timer.id
    · rw [if_pos hl]
      dsimp only
      have hlive := live_remove_eq_nil ho.timers (pending_eq_of_isLive ho.timers hl)
      obtain ⟨h', fault, hwrite, hrest⟩ := exists_isAtRest_of_writeText serve hq
        (h := { h with
          timers := h.timers.remove timer.id
          coordinator := { h.coordinator with pending := none } }) hlive rfl
      rw [hwrite]
      cases fault with
      | some fault => exact ⟨h', _, rfl, hrest.isOrderly⟩
      | none =>
        -- The one live timer has fired: no other one is left.
        exact ⟨h', _, fire_of_live_eq_nil serve ls hrest.live due, hrest.isOrderly⟩
    · rw [if_neg hl]
      exact ih

end Order

section Edit

variable (serve : Service Memory) {ls : Listeners Memory} {text : String}

theorem reflects_of_read {reading : Diagram.Reading} {before : Store}
    (hread : readArranged text = .ok (.ok reading)) (hstore : h.store = .ofDocument reading.document)
    (herror : h.coordinator.error = none) : Reflects text before h := by
  constructor
  · intro other hother
    rw [hread] at hother
    cases hother
    have hsurface := Store.surface_ofDocument reading.document
    rw [← hstore] at hsurface
    simp only [Store.surface, Prod.mk.injEq] at hsurface
    obtain ⟨hdocument, hnodes, hedges, hfocus⟩ := hsurface
    exact ⟨hdocument, hnodes, hedges, hfocus, herror⟩
  · intro hnone
    exact absurd ⟨reading, hread⟩ hnone

theorem reflects_of_refused {e : Diagram.ReadError} {before : Store}
    (hread : readArranged text = .ok (.error e)) (hstore : h.store = before)
    (herror : h.coordinator.error = some e) : Reflects text before h := by
  constructor
  · intro reading hok
    rw [hread] at hok
    cases hok
  · exact fun _ => ⟨hstore, e, hread, herror⟩

theorem Reflects.not_breaksOff {before : Store} (hr : Reflects text before h) :
    ¬Diagram.BreaksOff text := by
  intro hbroken
  obtain ⟨e, hread⟩ := Diagram.breaksOff_iff.mp hbroken
  obtain ⟨-, refused, hrefused, -⟩ := hr.refused (by simp [hread])
  rw [hread] at hrefused
  cases hrefused

/-- A new text is taken in, refused, or its reading is broken off; in any case nothing is pending
afterwards. -/
theorem IsOrderly.readText (hq : ls.AreQuiet) (ho : h.IsOrderly) (text : String) :
    ∃ h' reply, readText serve ls h text = some (h', reply) ∧ HasTaken text h h' ∧
      (Reflects text h.store h' ↔ ¬Diagram.BreaksOff text) ∧
      (Diagram.BreaksOff text → h'.store = h.store ∧ h'.coordinator.error = h.coordinator.error ∧
        ∃ e, reply = .broken (.position e)) := by
  have hrest := ho.cancelPending
  have hsame : h.cancelPending.store = h.store ∧
      h.cancelPending.coordinator.error = h.coordinator.error ∧
      h.cancelPending.coordinator.writes = h.coordinator.writes := by
    rw [cancelPending_eq]
    exact ⟨rfl, rfl, rfl⟩
  obtain ⟨hstore, herror, hwrites⟩ := hsame
  unfold Hub.readText
  dsimp only
  cases hread : readArranged text with
  | error e =>
    have hbroken : Diagram.BreaksOff text := Diagram.breaksOff_iff.mpr ⟨e, hread⟩
    exact ⟨_, _, rfl, ⟨⟨hrest.live, hrest.pending, rfl⟩, rfl, hwrites⟩,
      iff_of_false (fun hr => hr.not_breaksOff hbroken) (not_not_intro hbroken),
      fun _ => ⟨hstore, herror, e, rfl⟩⟩
  | ok outcome =>
    have hreadable : ¬Diagram.BreaksOff text := Diagram.exists_outcome_iff.mp ⟨outcome, hread⟩
    cases outcome with
    | error e =>
      exact ⟨_, _, rfl, ⟨⟨hrest.live, hrest.pending, rfl⟩, rfl, hwrites⟩,
        iff_of_true (reflects_of_refused hread hstore rfl) hreadable,
        fun hbroken => absurd hbroken hreadable⟩
    | ok reading =>
      obtain ⟨memory, hoperate⟩ := operate_readingText_quiet serve hq
        (h := { h.cancelPending with
          coordinator := { h.cancelPending.coordinator with text := text, phase := .readingText } })
        rfl (.replaceAll reading.document) rfl
      have hreplaced := Store.store_replaceAll h.cancelPending.store
        (Diagram.isFlow_of_readArranged hread).2
      dsimp only at hoperate ⊢
      rw [hoperate]
      exact ⟨_, _, rfl, ⟨⟨hrest.live, hrest.pending, rfl⟩, rfl, hwrites⟩,
        iff_of_true (reflects_of_read hread hreplaced rfl) hreadable,
        fun hbroken => absurd hbroken hreadable⟩

/-- No listener of the text has a part in an edit. -/
theorem setText_eq (serve' : Service Memory)
    (hq : ∀ listener ∈ ls.onChange, ∀ h change, (listener h change).IsQuiet)
    (onText : List (Hub Memory → String → Script Memory)) (h : Hub Memory) (text : String) :
    setText serve' ⟨ls.onChange, onText⟩ h text = setText serve ls h text := by
  unfold Hub.setText Hub.readText operate
  split_ifs
  · rfl
  · cases readArranged text with
    | error e => rfl
    | ok outcome =>
      cases outcome with
      | error e => rfl
      | ok reading =>
        simp only [StoreOp.run, Store.replaceAll, Store.changed, announce, takeChange,
          tellChange_eq serve' serve hq]

end Edit

section Runs

variable {ls : Listeners Memory} (hq : ls.AreQuiet)
include hq

/-- Every call is served, and the order is kept. -/
theorem IsOrderly.serveWith (serve : Service Memory) (ho : h.IsOrderly) (call : Call) :
    ∃ h' reply, serveWith serve ls h call = some (h', reply) ∧ h'.IsOrderly := by
  cases call with
  | setText text =>
    by_cases ht : text = h.coordinator.text
    · exact ⟨h, _, if_pos ht, ho⟩
    · obtain ⟨h', reply, hread, htaken, -⟩ := ho.readText serve hq text
      exact ⟨h', reply, (if_neg ht).trans hread, htaken.toIsAtRest.isOrderly⟩
  | store op =>
    obtain ⟨h', result, hoperate, horderly⟩ := ho.operate serve hq op
    exact ⟨h', _, by rw [Hub.serveWith, hoperate]; rfl, horderly⟩
  | flush => exact ho.flush serve hq
  | cancel => exact ⟨_, _, rfl, ho.cancelPending.isOrderly⟩
  | advance ms =>
    have hadvanced : IsOrderly { h with timers := h.timers.advance ms } := ⟨ho.timers, ho.phase⟩
    exact hadvanced.fire serve hq _

theorem Arises.isOrderly (ha : Arises ls h) : h.IsOrderly := by
  induction ha with
  | start store delay memory => exact isOrderly_start store delay memory
  | @step h h' call depth reply _ hs ih =>
    cases depth with
    | zero => cases hs
    | succ depth =>
      obtain ⟨served, answer, hserve, horderly⟩ := ih.serveWith hq (serve ls depth) call
      cases hserve.symm.trans hs
      exact horderly

end Runs

end Flowchart.Live.Hub
