import Flowchart.Live.Sync
import Mathlib.Logic.Function.Iterate
import Mathlib.Tactic.Common

/-! Serving a call as a run of single steps. Whatever waits for a listener is kept on a stack, so that
every moment of a run can be spoken of, also of a run that never ends. -/
namespace Flowchart.Live

open Diagram (Reading)

variable {Memory : Type}

/-- What is done next. -/
inductive Task (Memory : Type)
  | serve (call : Call)
  | run (script : Script Memory)
  | tellText (text : String) (listeners : List (Hub Memory → String → Script Memory))
  | announce (change : Change)
  | tellChange (change : Change) (listeners : List (Hub Memory → Change → Script Memory))
  | fire (due : List Timer)
  /-- A script, a write or an announcement is over. -/
  | finish (fault : Option Fault)
  /-- A call is over. -/
  | reply (reply : Reply)

/-- What waits for something to be over. -/
inductive Frame (Memory : Type)
  | script (next : Reply → Script Memory)
  | textListener (text : String) (rest : List (Hub Memory → String → Script Memory))
  | changeListener (change : Change) (rest : List (Hub Memory → Change → Script Memory))
  /-- A write, which is over when all listeners are told. -/
  | write
  /-- An edit, which is over when the new graph is announced. -/
  | read (reading : Reading)
  | operation (result : Except StoreError Bool)
  /-- The announcement of a direction, which is written first. -/
  | direction
  | flush
  | firing (rest : List Timer)

/-- A moment of a run. -/
structure Config (Memory : Type) where
  hub : Hub Memory
  task : Task Memory
  stack : List (Frame Memory)

namespace Hub

def writing (h : Hub Memory) : Hub Memory :=
  { h with coordinator :=
    { h.coordinator with
      phase := .writingText
      writes := h.coordinator.writes + 1
      text := Diagram.write h.store.document
      error :=
        if Diagram.write h.store.document = h.coordinator.text then h.coordinator.error else none } }

def editing (h : Hub Memory) (text : String) : Hub Memory :=
  { h.cancelPending with coordinator :=
    { h.cancelPending.coordinator with text := text, phase := .readingText } }

def edited (h : Hub Memory) : Hub Memory :=
  { h with coordinator := { h.coordinator with error := none, phase := .idle } }

def fired (h : Hub Memory) (id : Nat) : Hub Memory :=
  { h with
    timers := h.timers.remove id
    coordinator := { h.coordinator with pending := none } }

end Hub

namespace Config

variable (ls : Listeners Memory)

def beginWrite (h : Hub Memory) (stack : List (Frame Memory)) : Config Memory where
  hub := h.writing
  task :=
    if Diagram.write h.store.document = h.coordinator.text then .finish none
    else .tellText (Diagram.write h.store.document) ls.onText
  stack := .write :: stack

def beginRead (h : Hub Memory) (text : String) (stack : List (Frame Memory)) : Config Memory :=
  match Diagram.readArranged text with
  | .error e => ⟨(h.editing text).withPhase .idle, .reply (.broken (.position e)), stack⟩
  | .ok (.error e) =>
    let h := h.editing text
    let h := { h with coordinator := { h.coordinator with error := some e } }
    ⟨h.withPhase .idle, .reply (.reading (some (.error e))), stack⟩
  | .ok (.ok reading) =>
    let h := h.editing text
    ⟨{ h with store := (h.store.replaceAll reading.document).store }, .announce .replaced,
      .read reading :: stack⟩

def beginAnnounce (h : Hub Memory) (change : Change) (stack : List (Frame Memory)) :
    Config Memory :=
  match h.coordinator.phase, change with
  | .readingText, change =>
    ⟨{ h with coordinator := { h.coordinator with suppressed := h.coordinator.suppressed + 1 } },
      .tellChange change ls.onChange, stack⟩
  | .writingText, change => ⟨h, .tellChange change ls.onChange, stack⟩
  | _, .selection => ⟨h, .tellChange .selection ls.onChange, stack⟩
  | _, .position => ⟨h, .tellChange .position ls.onChange, stack⟩
  | _, .direction => beginWrite ls h.cancelPending (.direction :: stack)
  | _, change => ⟨h.schedule, .tellChange change ls.onChange, stack⟩

def beginCall (h : Hub Memory) (call : Call) (stack : List (Frame Memory)) : Config Memory :=
  match call with
  | .setText text =>
    if text = h.coordinator.text then ⟨h, .reply (.reading none), stack⟩
    else beginRead h text stack
  | .store op =>
    let effect := op.run h.store
    ⟨{ h with store := effect.store }, effect.change.elim (.finish none) .announce,
      .operation effect.result :: stack⟩
  | .flush =>
    if h.coordinator.pending.isNone then ⟨h, .reply (.flushed false), stack⟩
    else beginWrite ls h.cancelPending (.flush :: stack)
  | .cancel => ⟨h.cancelPending, .reply .done, stack⟩
  | .advance ms =>
    let h := { h with timers := h.timers.advance ms }
    ⟨h, .fire h.timers.due, stack⟩

end Config

/-- What comes next when what the frame waits for is over. -/
def Frame.resume (ls : Listeners Memory) (h : Hub Memory) :
    Frame Memory → Task Memory → Option (Hub Memory × Task Memory)
  | script next, .reply reply => some (h, .run (next reply))
  | textListener text rest, .finish none => some (h, .tellText text rest)
  | textListener _ _, .finish (some fault) => some (h, .finish (some fault))
  | changeListener change rest, .finish _ => some (h, .tellChange change rest)
  | write, .finish fault => some (h.withPhase .idle, .finish fault)
  | read reading, .finish _ => some (h.edited, .reply (.reading (some (.ok (h.current reading)))))
  | operation result, .finish _ => some (h, .reply (.stored result))
  | direction, .finish _ => some (h, .tellChange .direction ls.onChange)
  | flush, .finish fault => some (h, .reply ((fault.map .broken).getD (.flushed true)))
  | firing rest, .finish none => some (h, .fire rest)
  | firing _, .finish (some fault) => some (h, .reply (.broken fault))
  | _, _ => none

namespace Config

/-- What is over is handed to what waits for it, if there is such a thing. -/
def handBack (ls : Listeners Memory) (c : Config Memory) : Config Memory :=
  match c.stack with
  | [] => c
  | frame :: stack =>
    match frame.resume ls c.hub c.task with
    | some (h, task) => ⟨h, task, stack⟩
    | none => c

/-- The next moment. A run that is over stays as it is. -/
def step (ls : Listeners Memory) (c : Config Memory) : Config Memory :=
  match c.task with
  | .serve call => beginCall ls c.hub call c.stack
  | .run .done => ⟨c.hub, .finish none, c.stack⟩
  | .run (.raise fault) => ⟨c.hub, .finish (some fault), c.stack⟩
  | .run (.remember change next) =>
    ⟨{ c.hub with memory := change c.hub.memory }, .run next, c.stack⟩
  | .run (.call call next) => ⟨c.hub, .serve call, .script next :: c.stack⟩
  | .tellText _ [] => ⟨c.hub, .finish none, c.stack⟩
  | .tellText text (listener :: rest) =>
    ⟨c.hub, .run (listener c.hub text), .textListener text rest :: c.stack⟩
  | .announce change => beginAnnounce ls c.hub change c.stack
  | .tellChange _ [] => ⟨c.hub, .finish none, c.stack⟩
  | .tellChange change (listener :: rest) =>
    ⟨c.hub, .run (listener c.hub change), .changeListener change rest :: c.stack⟩
  | .fire [] => ⟨c.hub, .reply .done, c.stack⟩
  | .fire (timer :: rest) =>
    if c.hub.timers.isLive timer.id then
      beginWrite ls (c.hub.fired timer.id) (.firing rest :: c.stack)
    else ⟨c.hub, .fire rest, c.stack⟩
  | .finish _ => c.handBack ls
  | .reply _ => c.handBack ls

/-- The later one is a moment of the run from the earlier one. -/
def Reaches (ls : Listeners Memory) (c c' : Config Memory) : Prop :=
  ∃ n, (step ls)^[n] c = c'

end Config

section Runs

namespace Config

variable {ls : Listeners Memory} {c c' c'' : Config Memory}

theorem Reaches.refl (ls : Listeners Memory) (c : Config Memory) : Reaches ls c c :=
  ⟨0, rfl⟩

theorem Reaches.head (hr : Reaches ls (c.step ls) c') : Reaches ls c c' := by
  obtain ⟨n, hn⟩ := hr
  exact ⟨n + 1, hn⟩

theorem Reaches.trans (hr : Reaches ls c c') (hr' : Reaches ls c' c'') : Reaches ls c c'' := by
  obtain ⟨n, rfl⟩ := hr
  obtain ⟨m, rfl⟩ := hr'
  exact ⟨m + n, Function.iterate_add_apply _ m n c⟩

/-- Of two moments of one run one comes first. -/
theorem Reaches.total (hr : Reaches ls c c') (hr' : Reaches ls c c'') :
    Reaches ls c' c'' ∨ Reaches ls c'' c' := by
  obtain ⟨n, rfl⟩ := hr
  obtain ⟨m, rfl⟩ := hr'
  rcases Nat.le_total n m with hle | hle
  · obtain ⟨k, rfl⟩ := Nat.exists_eq_add_of_le' hle
    exact .inl ⟨k, (Function.iterate_add_apply _ k n c).symm⟩
  · obtain ⟨k, rfl⟩ := Nat.exists_eq_add_of_le' hle
    exact .inr ⟨k, (Function.iterate_add_apply _ k m c).symm⟩

theorem Reaches.eq_of_step_eq (hs : c.step ls = c) (hr : Reaches ls c c') : c' = c := by
  obtain ⟨n, rfl⟩ := hr
  exact Function.iterate_fixed hs n

/-- The reply of the outermost call is there. -/
def IsOver (c : Config Memory) : Prop :=
  c.stack = [] ∧ ∃ reply, c.task = .reply reply

theorem IsOver.step_eq (ho : c.IsOver) : c.step ls = c := by
  obtain ⟨hub, task, stack⟩ := c
  obtain ⟨rfl, reply, rfl⟩ := ho
  rfl

theorem Reaches.exists_le {n : Nat} (ho : ((step ls)^[n] c).IsOver) (hr : Reaches ls c c') :
    ∃ k ≤ n, (step ls)^[k] c = c' := by
  obtain ⟨m, rfl⟩ := hr
  rcases Nat.le_total m n with hle | hle
  · exact ⟨m, hle, rfl⟩
  · obtain ⟨k, rfl⟩ := Nat.exists_eq_add_of_le' hle
    refine ⟨n, Nat.le_refl n, ?_⟩
    rw [Function.iterate_add_apply, Function.iterate_fixed ho.step_eq]

theorem Reaches.eq_of_isOver (hr : Reaches ls c c') (hr' : Reaches ls c c'')
    (ho : c'.IsOver) (ho' : c''.IsOver) : c' = c'' := by
  rcases hr.total hr' with hlater | hlater
  · exact (hlater.eq_of_step_eq ho.step_eq).symm
  · exact hlater.eq_of_step_eq ho'.step_eq

end Config

end Runs

end Flowchart.Live
