import Flowchart.Live.Sync
import Mathlib.Tactic.Common

/-! Listeners that do not call back: a call is served whatever they do, and they change nothing but
what they remember. -/
namespace Flowchart.Live

variable {Memory : Type}

/-- The script makes no call. It may raise and remember. -/
inductive Script.IsQuiet : Script Memory → Prop
  | done : IsQuiet .done
  | raise (fault : Fault) : IsQuiet (.raise fault)
  | remember {change : Memory → Memory} {next : Script Memory} (h : next.IsQuiet) :
      IsQuiet (.remember change next)

structure Listeners.AreQuiet (ls : Listeners Memory) : Prop where
  onChange : ∀ listener ∈ ls.onChange, ∀ h change, (listener h change).IsQuiet
  onText : ∀ listener ∈ ls.onText, ∀ h text, (listener h text).IsQuiet

namespace Hub

variable (serve : Service Memory) {ls : Listeners Memory}

theorem runScript_quiet {script : Script Memory} (hq : script.IsQuiet) (h : Hub Memory) :
    ∃ memory fault, runScript serve h script = some ({ h with memory := memory }, fault) := by
  induction hq generalizing h with
  | done => exact ⟨h.memory, none, rfl⟩
  | raise fault => exact ⟨h.memory, some fault, rfl⟩
  | @remember change next _ ih => exact ih { h with memory := change h.memory }

theorem tellText_quiet {listeners : List (Hub Memory → String → Script Memory)}
    (hq : ∀ listener ∈ listeners, ∀ h text, (listener h text).IsQuiet) (text : String)
    (h : Hub Memory) :
    ∃ memory fault, tellText serve text listeners h = some ({ h with memory := memory }, fault) := by
  induction listeners generalizing h with
  | nil => exact ⟨h.memory, none, rfl⟩
  | cons listener rest ih =>
    obtain ⟨memory, fault, hrun⟩ := runScript_quiet serve (hq listener (by simp) h text) h
    rw [tellText, hrun]
    cases fault with
    | some fault => exact ⟨memory, some fault, rfl⟩
    | none => exact ih (fun l hl => hq l (List.mem_cons_of_mem _ hl)) { h with memory := memory }

theorem tellChange_quiet {listeners : List (Hub Memory → Change → Script Memory)}
    (hq : ∀ listener ∈ listeners, ∀ h change, (listener h change).IsQuiet) (change : Change)
    (h : Hub Memory) :
    ∃ memory, tellChange serve change listeners h = some { h with memory := memory } := by
  induction listeners generalizing h with
  | nil => exact ⟨h.memory, rfl⟩
  | cons listener rest ih =>
    obtain ⟨memory, fault, hrun⟩ := runScript_quiet serve (hq listener (by simp) h change) h
    rw [tellChange, hrun]
    exact ih (fun l hl => hq l (List.mem_cons_of_mem _ hl)) { h with memory := memory }

/-- Listeners that do not call back do not depend on how calls are served. -/
theorem tellChange_eq (serve' : Service Memory)
    {listeners : List (Hub Memory → Change → Script Memory)}
    (hq : ∀ listener ∈ listeners, ∀ h change, (listener h change).IsQuiet) (change : Change)
    (h : Hub Memory) :
    tellChange serve change listeners h = tellChange serve' change listeners h := by
  have hrun : ∀ {script : Script Memory}, script.IsQuiet → ∀ h,
      runScript serve h script = runScript serve' h script := by
    intro script hscript
    induction hscript with
    | done => exact fun _ => rfl
    | raise fault => exact fun _ => rfl
    | @remember change next _ ih => exact fun h => ih { h with memory := change h.memory }
  induction listeners generalizing h with
  | nil => rfl
  | cons listener rest ih =>
    rw [tellChange, tellChange, hrun (hq listener (by simp) h change)]
    cases runScript serve' h (listener h change) with
    | none => rfl
    | some told => exact ih (fun l hl => hq l (List.mem_cons_of_mem _ hl)) told.1

/-- The hub after its graph was written. The error of a text goes with the text. -/
def written (h : Hub Memory) (memory : Memory) : Hub Memory :=
  { h with
    memory := memory
    coordinator :=
      { h.coordinator with
        phase := .idle
        text := Diagram.write h.store.document
        error :=
          if Diagram.write h.store.document = h.coordinator.text then h.coordinator.error else none
        writes := h.coordinator.writes + 1 } }

theorem writeText_quiet (hq : ls.AreQuiet) (h : Hub Memory) :
    ∃ memory fault, writeText serve ls h = some (h.written memory, fault) := by
  by_cases ht : Diagram.write h.store.document = h.coordinator.text
  · refine ⟨h.memory, none, ?_⟩
    simp only [writeText, written, withPhase, ht, if_true]
  · obtain ⟨memory, fault, htell⟩ := tellText_quiet serve hq.onText
      (Diagram.write h.store.document)
      { h with coordinator :=
        { h.coordinator with
          phase := .writingText
          writes := h.coordinator.writes + 1
          text := Diagram.write h.store.document
          error := none } }
    refine ⟨memory, fault, ?_⟩
    simp only [writeText, written, withPhase, ht, if_false]
    rw [htell]

/-- What becomes of a hub outside a sync when its graph has changed: nothing, a write at once, or a
write after the quiet period. -/
inductive Takes (h : Hub Memory) : Change → Hub Memory → Prop
  | ignore {change : Change} (hc : change = .selection ∨ change = .position) : Takes h change h
  | write (memory : Memory) : Takes h .direction (h.cancelPending.written memory)
  | schedule {change : Change} (hc : change = .nodes ∨ change = .edges ∨ change = .replaced) :
      Takes h change h.schedule

theorem takeChange_schedule {h : Hub Memory}
    (hp : h.coordinator.phase = .idle ∨ h.coordinator.phase = .waiting) {change : Change}
    (hc : change = .nodes ∨ change = .edges ∨ change = .replaced) :
    takeChange serve ls change h = some h.schedule := by
  rcases hc with rfl | rfl | rfl <;> rcases hp with hp | hp <;> simp only [takeChange, hp]

theorem takeChange_quiet (hq : ls.AreQuiet) {h : Hub Memory}
    (hp : h.coordinator.phase = .idle ∨ h.coordinator.phase = .waiting) (change : Change) :
    ∃ h', takeChange serve ls change h = some h' ∧ Takes h change h' := by
  cases change with
  | selection =>
    have htake : takeChange serve ls .selection h = some h := by
      rcases hp with hp | hp <;> simp only [takeChange, hp]
    exact ⟨h, htake, .ignore (.inl rfl)⟩
  | position =>
    have htake : takeChange serve ls .position h = some h := by
      rcases hp with hp | hp <;> simp only [takeChange, hp]
    exact ⟨h, htake, .ignore (.inr rfl)⟩
  | direction =>
    have htake : takeChange serve ls .direction h =
        (writeText serve ls h.cancelPending).map (·.1) := by
      rcases hp with hp | hp <;> simp only [takeChange, hp]
    obtain ⟨memory, fault, hwrite⟩ := writeText_quiet serve hq h.cancelPending
    rw [htake, hwrite]
    exact ⟨_, rfl, .write memory⟩
  | nodes => exact ⟨_, takeChange_schedule serve hp (.inl rfl), .schedule (.inl rfl)⟩
  | edges => exact ⟨_, takeChange_schedule serve hp (.inr (.inl rfl)), .schedule (.inr (.inl rfl))⟩
  | replaced => exact ⟨_, takeChange_schedule serve hp (.inr (.inr rfl)), .schedule (.inr (.inr rfl))⟩

theorem announce_quiet (hq : ls.AreQuiet) {h : Hub Memory}
    (hp : h.coordinator.phase = .idle ∨ h.coordinator.phase = .waiting) (change : Change) :
    ∃ h' memory, announce serve ls h (some change) = some { h' with memory := memory } ∧
      Takes h change h' := by
  obtain ⟨h', htake, htakes⟩ := takeChange_quiet serve hq hp change
  obtain ⟨memory, htell⟩ := tellChange_quiet serve hq.onChange change h'
  exact ⟨h', memory, by simp only [announce, htake, htell], htakes⟩

/-- While a text is read, a change of the graph is counted and otherwise ignored. -/
theorem operate_readingText_quiet (hq : ls.AreQuiet) {h : Hub Memory}
    (hp : h.coordinator.phase = .readingText) (op : StoreOp) {change : Change}
    (hc : (op.run h.store).change = some change) :
    ∃ memory, operate serve ls h op =
      some ({ store := (op.run h.store).store
              coordinator :=
                { h.coordinator with suppressed := h.coordinator.suppressed + 1 }
              timers := h.timers
              memory := memory }, (op.run h.store).result) := by
  obtain ⟨store, ⟨phase, pending, text, error, writes, suppressed, delay⟩, timers, remembered⟩ := h
  cases hp
  obtain ⟨memory, htell⟩ := tellChange_quiet serve hq.onChange change
    ⟨(op.run store).store,
      ⟨.readingText, pending, text, error, writes, suppressed + 1, delay⟩, timers, remembered⟩
  refine ⟨memory, ?_⟩
  simp only [operate, hc, announce, takeChange]
  rw [htell]
  rfl

end Hub
end Flowchart.Live
