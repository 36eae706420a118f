import Flowchart.Proofs.Live.Burst

/-! Which listeners of the text are told when a write brings another text: one after the other, each
once, up to the first one that raises. What they are told is noted beside what they remember, in a record
of which they know nothing. -/
namespace Flowchart.Live

variable {Memory : Type}

/-- What listeners remember, and which listener of the text was told what. -/
structure Recorded (Memory : Type) where
  memory : Memory
  told : List (Nat × String)

def Recorded.note (i : Nat) (text : String) (r : Recorded Memory) : Recorded Memory :=
  { r with told := r.told ++ [(i, text)] }

namespace Script

def recorded : Script Memory → Script (Recorded Memory)
  | .done => .done
  | .raise fault => .raise fault
  | .remember change next =>
    .remember (fun r => { r with memory := change r.memory }) next.recorded
  | .call asked next => .call asked fun reply => (next reply).recorded

/-- The fault that a script without calls ends in. -/
def fault? : Script Memory → Option Fault
  | .done => none
  | .raise fault => some fault
  | .remember _ next => next.fault?
  | .call _ _ => none

end Script

namespace Hub

def recording (h : Hub Memory) (told : List (Nat × String)) : Hub (Recorded Memory) where
  store := h.store
  coordinator := h.coordinator
  timers := h.timers
  memory := ⟨h.memory, told⟩

def unrecorded (h : Hub (Recorded Memory)) : Hub Memory where
  store := h.store
  coordinator := h.coordinator
  timers := h.timers
  memory := h.memory.memory

@[simp] theorem unrecorded_recording (h : Hub Memory) (told : List (Nat × String)) :
    (h.recording told).unrecorded = h := rfl

end Hub

/-- The listeners of a text, numbered from some number on. Each one notes its number and the text before
it does what it does. -/
def recordedFrom (i : Nat) : List (Hub Memory → String → Script Memory) →
    List (Hub (Recorded Memory) → String → Script (Recorded Memory))
  | [] => []
  | listener :: rest =>
    (fun h text => .remember (.note i text) (listener h.unrecorded text).recorded) ::
      recordedFrom (i + 1) rest

def Listeners.recorded (ls : Listeners Memory) : Listeners (Recorded Memory) where
  onChange := ls.onChange.map fun listener h change => (listener h.unrecorded change).recorded
  onText := recordedFrom 0 ls.onText

namespace Hub

/-- The listener with a number raises when it is told a text, all before it having been told. -/
def RaisesAt (h : Hub Memory) (text : String)
    (listeners : List (Hub Memory → String → Script Memory)) (i : Nat) : Prop :=
  ∃ listener ∈ listeners[i]?,
    (listener { h with memory := h.told text (listeners.take i) } text).fault? ≠ none

/-- How many listeners a text reaches. -/
def reach (h : Hub Memory) (text : String) :
    List (Hub Memory → String → Script Memory) → Nat
  | [] => 0
  | listener :: rest =>
    match (listener h text).fault? with
    | some _ => 1
    | none => reach { h with memory := (listener h text).memoryAfter h.memory } text rest + 1

section Scripts

variable (serve : Service Memory) (serve' : Service (Recorded Memory))

theorem runScript_eq_of_isQuiet {script : Script Memory} (hq : script.IsQuiet) (h : Hub Memory) :
    runScript serve h script =
      some ({ h with memory := script.memoryAfter h.memory }, script.fault?) := by
  induction hq generalizing h with
  | done => rfl
  | raise fault => rfl
  | @remember change next _ ih => exact ih { h with memory := change h.memory }

theorem runScript_recorded {script : Script Memory} (hq : script.IsQuiet) (h : Hub Memory)
    (log : List (Nat × String)) :
    runScript serve' (h.recording log) script.recorded =
      some (recording { h with memory := script.memoryAfter h.memory } log, script.fault?) := by
  induction hq generalizing h with
  | done => rfl
  | raise fault => rfl
  | @remember change next _ ih => exact ih { h with memory := change h.memory }

theorem tellChange_recorded {listeners : List (Hub Memory → Change → Script Memory)}
    (hq : ∀ listener ∈ listeners, ∀ h change, (listener h change).IsQuiet) (change : Change)
    (h : Hub Memory) (log : List (Nat × String)) :
    ∃ memory, tellChange serve change listeners h = some { h with memory := memory } ∧
      tellChange serve' change
        (listeners.map fun listener h change => (listener h.unrecorded change).recorded)
        (h.recording log) = some (recording { h with memory := memory } log) := by
  induction listeners generalizing h with
  | nil => exact ⟨h.memory, rfl, rfl⟩
  | cons listener rest ih =>
    have hscript := hq listener List.mem_cons_self h change
    obtain ⟨memory, htell, hrecorded⟩ := ih (fun l hl => hq l (List.mem_cons_of_mem _ hl))
      { h with memory := (listener h change).memoryAfter h.memory }
    refine ⟨memory, ?_, ?_⟩
    · rw [tellChange, runScript_eq_of_isQuiet serve hscript]
      exact htell
    · rw [List.map_cons, tellChange, unrecorded_recording, runScript_recorded serve' hscript]
      exact hrecorded

theorem tellText_recorded {listeners : List (Hub Memory → String → Script Memory)}
    (hq : ∀ listener ∈ listeners, ∀ h text, (listener h text).IsQuiet) (text : String)
    (h : Hub Memory) (i : Nat) (log : List (Nat × String)) :
    ∃ memory fault, tellText serve text listeners h = some ({ h with memory := memory }, fault) ∧
      tellText serve' text (recordedFrom i listeners) (h.recording log) =
        some (recording { h with memory := memory }
          (log ++ (List.range' i (h.reach text listeners)).map (·, text)), fault) := by
  induction listeners generalizing h i log with
  | nil => exact ⟨h.memory, none, rfl, by simp [tellText, recordedFrom, reach]⟩
  | cons listener rest ih =>
    have hscript := hq listener List.mem_cons_self h text
    have hfirst : runScript serve' (h.recording log)
        (.remember (.note i text) (listener (h.recording log).unrecorded text).recorded) =
          some (recording { h with memory := (listener h text).memoryAfter h.memory }
            (log ++ [(i, text)]), (listener h text).fault?) :=
      runScript_recorded serve' hscript h (log ++ [(i, text)])
    rw [tellText, recordedFrom, tellText, reach, hfirst, runScript_eq_of_isQuiet serve hscript]
    cases (listener h text).fault? with
    | some fault => exact ⟨_, some fault, rfl, rfl⟩
    | none =>
      obtain ⟨memory, fault, htell, hrecorded⟩ := ih (fun l hl => hq l (List.mem_cons_of_mem _ hl))
        { h with memory := (listener h text).memoryAfter h.memory } (i + 1) (log ++ [(i, text)])
      refine ⟨memory, fault, htell, ?_⟩
      simp only [hrecorded, List.range'_succ, List.map_cons, List.append_assoc,
        List.singleton_append]

end Scripts

section Reach

variable {text : String} {listeners : List (Hub Memory → String → Script Memory)}

/-- A text reaches the listeners before which none raises. -/
theorem lt_reach_iff {h : Hub Memory} {i : Nat} :
    i < h.reach text listeners ↔
      i < listeners.length ∧ ∀ j < i, ¬h.RaisesAt text listeners j := by
  induction listeners generalizing h i with
  | nil => simp [reach]
  | cons listener rest ih =>
    have hzero : h.RaisesAt text (listener :: rest) 0 ↔ (listener h text).fault? ≠ none := by
      simp [RaisesAt, told]
    have hsucc : ∀ j, h.RaisesAt text (listener :: rest) (j + 1) ↔
        RaisesAt { h with memory := (listener h text).memoryAfter h.memory } text rest j :=
      fun j => Iff.rfl
    rw [reach, List.length_cons]
    cases i with
    | zero => cases (listener h text).fault? <;> simp
    | succ i =>
      cases hfault : (listener h text).fault? with
      | some fault =>
        refine iff_of_false (by simp) fun hnone => hnone.2 0 (Nat.succ_pos i) ?_
        simp [hzero, hfault]
      | none =>
        simp only [Nat.succ_lt_succ_iff, ih, ← hsucc]
        refine and_congr_right fun _ => ⟨fun hrest j hj => ?_, fun hall j hj => ?_⟩
        · cases j with
          | zero => simp [hzero, hfault]
          | succ j => exact hrest j (Nat.lt_of_succ_lt_succ hj)
        · exact hall (j + 1) (Nat.succ_lt_succ hj)

theorem reach_le (h : Hub Memory) : h.reach text listeners ≤ listeners.length :=
  Nat.le_of_not_lt fun hlt => absurd (lt_reach_iff.mp hlt).1 (Nat.lt_irrefl _)

/-- A text reaches all listeners exactly if none but the last one raises. -/
theorem reach_eq_length_iff {h : Hub Memory} : h.reach text listeners = listeners.length ↔
    ∀ i, i + 1 < listeners.length → ¬h.RaisesAt text listeners i := by
  constructor
  · intro heq i hi
    exact (lt_reach_iff.mp (heq ▸ hi)).2 i (Nat.lt_succ_self i)
  · intro hnone
    refine Nat.le_antisymm (reach_le h) (Nat.le_of_not_lt fun hlt => ?_)
    refine absurd (lt_reach_iff.mpr ⟨hlt, fun j hj => hnone j ?_⟩) (Nat.lt_irrefl _)
    omega

end Reach

/-- The hub as its text listeners found it, from the hubs before and after a call. -/
def whileTold (h h' : Hub Memory) : Hub Memory :=
  { h'.withPhase .writingText with memory := h.memory }

/-- Listeners are told the text of the hub that a write left, one after the other and once each, up to the
first one that raises; so all are told exactly if none but the last one raises. -/
structure TellsInTurn (ls : Listeners Memory) (h h' : Hub Memory) (told : List (Nat × String)) : Prop where
  inTurn : ∃ n, told = (List.range n).map (·, h'.coordinator.text) ∧ ∀ i, i < n ↔
    i < ls.onText.length ∧ ∀ j < i, ¬(h.whileTold h').RaisesAt h'.coordinator.text ls.onText j
  all_iff : told = (List.range ls.onText.length).map (·, h'.coordinator.text) ↔
    ∀ i, i + 1 < ls.onText.length → ¬(h.whileTold h').RaisesAt h'.coordinator.text ls.onText i

theorem tellsInTurn_reach (ls : Listeners Memory) (h h' : Hub Memory) :
    TellsInTurn ls h h' ((List.range ((h.whileTold h').reach h'.coordinator.text ls.onText)).map
      (·, h'.coordinator.text)) where
  inTurn := ⟨_, rfl, fun _ => lt_reach_iff⟩
  all_iff := by
    rw [← reach_eq_length_iff]
    refine ⟨fun hmap => ?_, fun hreach => by rw [hreach]⟩
    simpa using congrArg List.length hmap

/-- What a call did to the text, and what of it was told: at most one write, which tells a text that is
another one, as far as it reaches. -/
inductive Delivers (ls : Listeners Memory) (h h' : Hub Memory) : List (Nat × String) → Prop
  | quiet (hwrites : h'.coordinator.writes = h.coordinator.writes) : Delivers ls h h' []
  | same (hwrites : h'.coordinator.writes = h.coordinator.writes + 1)
      (htext : h'.coordinator.text = h.coordinator.text) : Delivers ls h h' []
  | replaced (hwrites : h'.coordinator.writes = h.coordinator.writes + 1)
      (htext : h'.coordinator.text ≠ h.coordinator.text) :
      Delivers ls h h'
        ((List.range ((h.whileTold h').reach h'.coordinator.text ls.onText)).map
          (·, h'.coordinator.text))

/-- Two runs from one hub, one of them with a record. They lead to one hub and one result, and what
was told is in the record. -/
def RunAlike {Result : Type} (ls : Listeners Memory) (h : Hub Memory) (log : List (Nat × String))
    (run : Option (Hub Memory × Result)) (recorded : Option (Hub (Recorded Memory) × Result)) :
    Prop :=
  ∃ h' result told, run = some (h', result) ∧
    recorded = some (h'.recording (log ++ told), result) ∧ Delivers ls h h' told

section Calls

variable {ls : Listeners Memory} {h h' h₁ : Hub Memory} {told log : List (Nat × String)}

theorem Delivers.of_before (hd : Delivers ls h₁ h' told)
    (hwrites : h₁.coordinator.writes = h.coordinator.writes)
    (htext : h₁.coordinator.text = h.coordinator.text) (hmemory : h₁.memory = h.memory) :
    Delivers ls h h' told := by
  cases hd with
  | quiet hkept => exact .quiet (hkept.trans hwrites)
  | same hkept hsame => exact .same (hwrites ▸ hkept) (hsame.trans htext)
  | replaced hnew hother =>
    have hwhile : h₁.whileTold h' = h.whileTold h' := by rw [whileTold, whileTold, hmemory]
    rw [hwhile]
    exact .replaced (hwrites ▸ hnew) (htext ▸ hother)

theorem Delivers.withMemory (hd : Delivers ls h h' told) (memory : Memory) :
    Delivers ls h { h' with memory := memory } told := by
  cases hd with
  | quiet hkept => exact .quiet hkept
  | same hkept hsame => exact .same hkept hsame
  | replaced hnew hother => exact .replaced hnew hother

theorem recording_cancelPending (h : Hub Memory) (log : List (Nat × String)) :
    (h.recording log).cancelPending = h.cancelPending.recording log := by
  rw [cancelPending_eq, cancelPending_eq]
  rfl

theorem recording_schedule (h : Hub Memory) (log : List (Nat × String)) :
    (h.recording log).schedule = h.schedule.recording log := by
  unfold schedule
  rw [recording_cancelPending]
  rfl

theorem Delivers.of_cancelPending (hd : Delivers ls h.cancelPending h' told) :
    Delivers ls h h' told := by
  rw [cancelPending_eq] at hd
  exact hd.of_before rfl rfl rfl

theorem writeText_of_ne (serve : Service Memory) (ls : Listeners Memory)
    (ht : Diagram.write h.store.document ≠ h.coordinator.text) :
    writeText serve ls h =
      (tellText serve (Diagram.write h.store.document) ls.onText h.writing).map
        fun (h, fault) => (h.withPhase .idle, fault) := by
  simp only [writeText, writing, ht, if_false]
  cases tellText serve _ ls.onText _ <;> rfl

def replacing (h : Hub Memory) (text : String) (d : Document) : Hub Memory :=
  { h.editing text with
    store := (h.store.replaceAll d).store
    coordinator :=
      { (h.editing text).coordinator with
        suppressed := (h.editing text).coordinator.suppressed + 1 } }

theorem recording_replacing (h : Hub Memory) (log : List (Nat × String)) (text : String)
    (d : Document) :
    (h.recording log).replacing text d = (h.replacing text d).recording log := by
  unfold replacing editing
  rw [recording_cancelPending]
  rfl

theorem readText_of_read (serve : Service Memory) (ls : Listeners Memory) {text : String}
    {reading : Diagram.Reading} (hread : Diagram.readArranged text = .ok (.ok reading))
    (htell : tellChange serve .replaced ls.onChange (h.replacing text reading.document) = some h') :
    readText serve ls h text = some (h'.edited, .reading (some (.ok (h'.current reading)))) := by
  unfold replacing editing at htell
  simp only [readText, hread, operate, StoreOp.run, Store.replaceAll, Store.changed, announce,
    takeChange] at htell ⊢
  rw [htell]
  rfl

theorem fire_of_isLive (serve : Service Memory) (ls : Listeners Memory) {timer : Timer}
    {fault : Option Fault} (hl : h.timers.isLive timer.id)
    (hwrite : writeText serve ls (h.fired timer.id) = some (h', fault)) (hlive : h'.timers.live = [])
    (due : List Timer) :
    fire serve ls (timer :: due) h = some (h', fault.elim .done .broken) := by
  unfold fired at hwrite
  cases fault with
  | some fault => simp only [fire, hl, if_true, hwrite, Option.elim_some]
  | none =>
    simp only [fire, hl, if_true, hwrite, Option.elim_none]
    exact fire_of_live_eq_nil serve ls hlive due

variable (serve : Service Memory) (serve' : Service (Recorded Memory))

theorem writeText_recorded (hq : ∀ listener ∈ ls.onText, ∀ h text, (listener h text).IsQuiet)
    (h : Hub Memory) (log : List (Nat × String)) :
    ∃ memory fault told, writeText serve ls h = some (h.written memory, fault) ∧
      writeText serve' ls.recorded (h.recording log) =
        some ((h.written memory).recording (log ++ told), fault) ∧
      Delivers ls h (h.written memory) told := by
  by_cases ht : Diagram.write h.store.document = h.coordinator.text
  · refine ⟨h.memory, none, [], ?_, ?_, .same rfl ht⟩
    · simp only [writeText, written, withPhase, ht, if_true]
    · simp only [writeText, written, withPhase, recording, ht, if_true, List.append_nil]
  · obtain ⟨memory, fault, htell, hrecorded⟩ := tellText_recorded serve serve' hq
      (Diagram.write h.store.document) h.writing 0 log
    rw [← List.range_eq_range'] at hrecorded
    refine ⟨memory, fault, _, ?_, ?_, .replaced rfl ht⟩
    · rw [writeText_of_ne serve ls ht, htell]
      rfl
    · rw [writeText_of_ne (h := h.recording log) serve' ls.recorded ht]
      exact congrArg (Option.map _) hrecorded

variable (hq : ls.AreQuiet)
include hq

theorem takeChange_recorded (hp : h.coordinator.phase = .idle ∨ h.coordinator.phase = .waiting)
    (change : Change) (log : List (Nat × String)) :
    ∃ h' told, takeChange serve ls change h = some h' ∧
      takeChange serve' ls.recorded change (h.recording log) = some (h'.recording (log ++ told)) ∧
      Delivers ls h h' told := by
  have hp' : (h.recording log).coordinator.phase = .idle ∨
      (h.recording log).coordinator.phase = .waiting := hp
  by_cases hpasses : change = .selection ∨ change = .position
  · refine ⟨h, [], ?_, ?_, .quiet rfl⟩
    · rcases hp with hp | hp <;> rcases hpasses with rfl | rfl <;> simp only [takeChange, hp]
    · rw [List.append_nil]
      rcases hp' with hp | hp <;> rcases hpasses with rfl | rfl <;> simp only [takeChange, hp]
  by_cases hdirection : change = .direction
  · subst hdirection
    obtain ⟨memory, fault, told, hwrite, hrecorded, hdelivers⟩ :=
      writeText_recorded serve serve' hq.onText h.cancelPending log
    refine ⟨_, told, ?_, ?_, hdelivers.of_cancelPending⟩
    · rcases hp with hp | hp <;> simp only [takeChange, hp, hwrite, Option.map_some]
    · rcases hp' with hp | hp <;>
        simp only [takeChange, hp, recording_cancelPending, hrecorded, Option.map_some]
  · have hdeferred : change = .nodes ∨ change = .edges ∨ change = .replaced := by
      cases change <;> simp_all
    refine ⟨_, [], takeChange_schedule serve hp hdeferred, ?_, ?_⟩
    · rw [takeChange_schedule serve' hp' hdeferred, recording_schedule, List.append_nil]
    · refine .quiet ?_
      change h.cancelPending.coordinator.writes = _
      rw [cancelPending_eq]

theorem announce_recorded (hp : h.coordinator.phase = .idle ∨ h.coordinator.phase = .waiting)
    (change : Option Change) (log : List (Nat × String)) :
    ∃ h' told, announce serve ls h change = some h' ∧
      announce serve' ls.recorded (h.recording log) change = some (h'.recording (log ++ told)) ∧
      Delivers ls h h' told := by
  cases change with
  | none => exact ⟨h, [], rfl, by rw [List.append_nil]; rfl, .quiet rfl⟩
  | some change =>
    obtain ⟨h₁, told, htake, htaken, hdelivers⟩ := takeChange_recorded serve serve' hq hp change log
    obtain ⟨memory, htell, htold⟩ :=
      tellChange_recorded serve serve' hq.onChange change h₁ (log ++ told)
    refine ⟨{ h₁ with memory := memory }, told, ?_, ?_, hdelivers.withMemory memory⟩
    · simp only [announce, htake, htell]
    · simp only [announce, htaken]
      exact htold

theorem operate_recorded (hp : h.coordinator.phase = .idle ∨ h.coordinator.phase = .waiting)
    (op : StoreOp) (log : List (Nat × String)) :
    RunAlike ls h log (operate serve ls h op) (operate serve' ls.recorded (h.recording log) op) := by
  obtain ⟨h', told, hannounce, hrecorded, hdelivers⟩ := announce_recorded serve serve' hq
    (h := { h with store := (op.run h.store).store }) hp (op.run h.store).change log
  exact ⟨h', (op.run h.store).result, told, congrArg (Option.map _) hannounce,
    congrArg (Option.map _) hrecorded, hdelivers.of_before rfl rfl rfl⟩

theorem flush_recorded (h : Hub Memory) (log : List (Nat × String)) :
    RunAlike ls h log (flush serve ls h) (flush serve' ls.recorded (h.recording log)) := by
  unfold flush
  change RunAlike ls h log _ (if h.coordinator.pending.isNone then _ else _)
  split_ifs
  · exact ⟨h, _, [], rfl, by rw [List.append_nil], .quiet rfl⟩
  · obtain ⟨memory, fault, told, hwrite, hrecorded, hdelivers⟩ :=
      writeText_recorded serve serve' hq.onText h.cancelPending log
    rw [recording_cancelPending, hwrite, hrecorded]
    exact ⟨_, _, told, rfl, rfl, hdelivers.of_cancelPending⟩

theorem fire_recorded (ht : ∀ timer ∈ h.timers.live, h.coordinator.pending = some timer.id)
    (due : List Timer) (log : List (Nat × String)) :
    RunAlike ls h log (fire serve ls due h) (fire serve' ls.recorded due (h.recording log)) := by
  induction due with
  | nil => exact ⟨h, .done, [], rfl, by rw [List.append_nil]; rfl, .quiet rfl⟩
  | cons timer due ih =>
    by_cases hl : h.timers.isLive timer.id
    · obtain ⟨memory, fault, told, hwrite, hrecorded, hdelivers⟩ :=
        writeText_recorded serve serve' hq.onText (h.fired timer.id) log
      have hlive := live_remove_eq_nil ht (pending_eq_of_isLive ht hl)
      exact ⟨(h.fired timer.id).written memory, _, told, fire_of_isLive serve ls hl hwrite hlive due,
        fire_of_isLive (h := h.recording log) serve' ls.recorded hl hrecorded hlive due,
        hdelivers.of_before rfl rfl rfl⟩
    · rw [fire, if_neg hl, fire, if_neg (c := (h.recording log).timers.isLive timer.id = true) hl]
      exact ih

theorem readText_recorded (h : Hub Memory) (text : String) (log : List (Nat × String)) :
    RunAlike ls h log (readText serve ls h text)
      (readText serve' ls.recorded (h.recording log) text) := by
  have hwrites : h.cancelPending.coordinator.writes = h.coordinator.writes := by
    rw [cancelPending_eq]
  cases hread : Diagram.readArranged text with
  | error e =>
    refine ⟨(h.editing text).withPhase .idle, .broken (.position e), [], ?_, ?_, .quiet hwrites⟩
    · simp only [readText, hread]
      rfl
    · simp only [readText, hread, recording_cancelPending, List.append_nil]
      rfl
  | ok outcome =>
    cases outcome with
    | error e =>
      refine ⟨{ h.editing text with coordinator :=
          { (h.editing text).coordinator with phase := .idle, error := some e } },
        .reading (some (.error e)), [], ?_, ?_, .quiet hwrites⟩
      · simp only [readText, hread]
        rfl
      · simp only [readText, hread, recording_cancelPending, List.append_nil]
        rfl
    | ok reading =>
      obtain ⟨memory, htell, htold⟩ := tellChange_recorded serve serve' hq.onChange .replaced
        (h.replacing text reading.document) log
      rw [← recording_replacing] at htold
      refine ⟨_, _, [], readText_of_read serve ls hread htell, ?_, .quiet hwrites⟩
      rw [List.append_nil]
      exact readText_of_read (h := h.recording log) serve' ls.recorded hread htold

theorem serveWith_recorded (ho : h.IsOrderly) (call : Call) (log : List (Nat × String)) :
    RunAlike ls h log (serveWith serve ls h call)
      (serveWith serve' ls.recorded (h.recording log) call) := by
  cases call with
  | setText text =>
    by_cases ht : text = h.coordinator.text
    · refine ⟨h, .reading none, [], if_pos ht, ?_, .quiet rfl⟩
      rw [List.append_nil]
      exact if_pos ht
    · obtain ⟨h', reply, told, hread, hrecorded, hdelivers⟩ :=
        readText_recorded serve serve' hq h text log
      exact ⟨h', reply, told, (if_neg ht).trans hread,
        (if_neg (c := text = (h.recording log).coordinator.text) ht).trans hrecorded, hdelivers⟩
  | store op =>
    obtain ⟨h', result, told, hoperate, hrecorded, hdelivers⟩ :=
      operate_recorded serve serve' hq ho.phase op log
    refine ⟨h', .stored result, told, ?_, ?_, hdelivers⟩
    · rw [serveWith, hoperate, Option.map_some]
    · rw [serveWith, hrecorded, Option.map_some]
  | flush => exact flush_recorded serve serve' hq h log
  | cancel =>
    refine ⟨h.cancelPending, .done, [], rfl, ?_, .quiet ?_⟩
    · rw [serveWith, recording_cancelPending, List.append_nil]
    · rw [cancelPending_eq]
  | advance ms =>
    obtain ⟨h', reply, told, hfire, hrecorded, hdelivers⟩ := fire_recorded serve serve' hq
      (h := { h with timers := h.timers.advance ms }) ho.timers (h.timers.advance ms).due log
    exact ⟨h', reply, told, hfire, hrecorded, hdelivers.of_before rfl rfl rfl⟩

end Calls

/-- A call has written the graph, and the text is another one. -/
def IsRewritten (h h' : Hub Memory) : Prop :=
  h'.coordinator.writes ≠ h.coordinator.writes ∧ h'.coordinator.text ≠ h.coordinator.text

/-- Where listeners of the text make no calls: in whatever state the graph is written, they are told in turn if
the text is another one then, and not at all if it is not. Where those of the graph make no calls either, so
that one call does not end in others, it comes to one such write at most. -/
theorem delivers {ls : Listeners Memory}
    (hq : ∀ listener ∈ ls.onText, ∀ h text, (listener h text).IsQuiet) :
    (∀ (serve : Service Memory) (serve' : Service (Recorded Memory)) (h : Hub Memory)
        (log : List (Nat × String)),
      ∃ h' fault told, writeText serve ls h = some (h', fault) ∧
        writeText serve' ls.recorded (h.recording log) = some (h'.recording (log ++ told), fault) ∧
        h'.coordinator.text = Diagram.write h.store.document ∧
        (h'.coordinator.text = h.coordinator.text → told = []) ∧
        (h'.coordinator.text ≠ h.coordinator.text → TellsInTurn ls h h' told)) ∧
    ((∀ listener ∈ ls.onChange, ∀ h change, (listener h change).IsQuiet) →
      ∀ h, Arises ls h → ∀ (depth : Nat) (call : Call) (log : List (Nat × String)),
        ∃ h' reply told, serve ls (depth + 1) h call = some (h', reply) ∧
          serve ls.recorded (depth + 1) (h.recording log) call =
            some (h'.recording (log ++ told), reply) ∧
          h'.coordinator.writes ≤ h.coordinator.writes + 1 ∧
          (¬h.IsRewritten h' → told = []) ∧ (h.IsRewritten h' → TellsInTurn ls h h' told)) := by
  constructor
  · intro serve serve' h log
    obtain ⟨memory, fault, told, hwrite, hrecorded, hdelivers⟩ :=
      writeText_recorded serve serve' hq h log
    refine ⟨h.written memory, fault, told, hwrite, hrecorded, rfl, ?_⟩
    cases hdelivers with
    | quiet hwrites => exact absurd hwrites (Nat.succ_ne_self _)
    | same _ htext => exact ⟨fun _ => rfl, fun hnew => absurd htext hnew⟩
    | replaced _ htext => exact ⟨fun hsame => absurd hsame htext, fun _ => tellsInTurn_reach ls _ _⟩
  · intro hchange h ha depth call log
    have hquiet : ls.AreQuiet := ⟨hchange, hq⟩
    obtain ⟨h', reply, told, hserve, hrecorded, hdelivers⟩ :=
      serveWith_recorded (serve ls depth) (serve ls.recorded depth) hquiet (ha.isOrderly hquiet) call log
    refine ⟨h', reply, told, hserve, hrecorded, ?_⟩
    cases hdelivers with
    | quiet hwrites => exact ⟨by omega, fun _ => rfl, fun hnew => absurd hwrites hnew.1⟩
    | same hwrites htext => exact ⟨by omega, fun _ => rfl, fun hnew => absurd htext hnew.2⟩
    | replaced hwrites htext =>
      exact ⟨by omega, fun hkept => absurd ⟨by omega, htext⟩ hkept, fun _ => tellsInTurn_reach ls _ _⟩

/-- The first of two listeners raises. The second one counts. -/
def raisingFirst : Listeners Nat where
  onChange := []
  onText := [fun _ _ => .raise .listener, fun _ _ => .remember (· + 1) .done]

/-- The direction changes: the text is replaced, but only the first listener is told. -/
theorem delivers_raisingFirst : ∃ (h' : Hub Nat) (reply : Reply) (told : List (Nat × String)),
    serve raisingFirst 1 (.start Store.loopDocument none 0)
        (.store (.setDirection (.ok .leftRight))) = some (h', reply) ∧
      serve raisingFirst.recorded 1 (recording (.start Store.loopDocument none 0) [])
        (.store (.setDirection (.ok .leftRight))) = some (h'.recording told, reply) ∧
      h'.coordinator.text ≠ "" ∧ h'.memory = 0 ∧ told = [(0, h'.coordinator.text)] := by
  have hq : raisingFirst.AreQuiet := by
    constructor
    · simp [raisingFirst]
    · intro listener hl h text
      simp only [raisingFirst, List.mem_cons, List.not_mem_nil, or_false] at hl
      rcases hl with rfl | rfl
      · exact .raise .listener
      · exact .remember .done
  have harises : Arises raisingFirst (.start Store.loopDocument none 0) :=
    .start (.ofDocument Store.loopDocument) none 0
  obtain ⟨h', reply, told, hserve, hrecorded, -, -, hnew⟩ :=
    (delivers hq.onText).2 hq.onChange _ harises 0 (.store (.setDirection (.ok .leftRight))) []
  have hrun : (serve raisingFirst 1 (.start Store.loopDocument none 0)
      (.store (.setDirection (.ok .leftRight)))).map (fun (h, _) =>
        (h.coordinator.writes, decide (h.coordinator.text = ""), h.memory)) =
      some (1, false, 0) := by decide +kernel
  rw [hserve] at hrun
  obtain ⟨hwrites, htext, hmemory⟩ :
      h'.coordinator.writes = 1 ∧ h'.coordinator.text ≠ "" ∧ h'.memory = 0 := by simpa using hrun
  obtain ⟨n, htold, hreach⟩ := (hnew ⟨by simp [hwrites, start, Coordinator.start], htext⟩).inTurn
  have hraises : (whileTold (.start Store.loopDocument none 0) h').RaisesAt h'.coordinator.text
      raisingFirst.onText 0 := ⟨_, rfl, by simp [Script.fault?]⟩
  have hone : n = 1 := by
    have hfirst : 0 < n := (hreach 0).mpr ⟨by simp [raisingFirst], by simp⟩
    have hsecond : ¬1 < n := fun hlt => ((hreach 1).mp hlt).2 0 Nat.one_pos hraises
    omega
  exact ⟨h', reply, told, hserve, hrecorded, htext, hmemory, by rw [htold, hone]; rfl⟩

end Hub
end Flowchart.Live
