import Flowchart.Proofs.Live.Consistency
import Flowchart.Proofs.Live.Superseded

/-! Changes that follow one another within the quiet period are written together, once, when it is over,
and a change of the direction writes them at once. The listeners here remember what they are told and do
nothing else. -/
namespace Flowchart.Live

variable {Memory : Type}

section Listening

/-- The script comes to its end, and it makes no call. -/
inductive Script.OnlyRemembers : Script Memory → Prop
  | done : OnlyRemembers .done
  | remember {change : Memory → Memory} {next : Script Memory} (h : next.OnlyRemembers) :
      OnlyRemembers (.remember change next)

def Script.memoryAfter (memory : Memory) : Script Memory → Memory
  | .done => memory
  | .raise _ => memory
  | .remember change next => next.memoryAfter (change memory)
  | .call _ _ => memory

structure Listeners.OnlyRemember (ls : Listeners Memory) : Prop where
  onChange : ∀ listener ∈ ls.onChange, ∀ h change, (listener h change).OnlyRemembers
  onText : ∀ listener ∈ ls.onText, ∀ h text, (listener h text).OnlyRemembers

theorem Script.OnlyRemembers.isQuiet {script : Script Memory} (hs : script.OnlyRemembers) :
    script.IsQuiet := by
  induction hs with
  | done => exact .done
  | remember _ ih => exact .remember ih

theorem Listeners.OnlyRemember.areQuiet {ls : Listeners Memory} (hq : ls.OnlyRemember) :
    ls.AreQuiet where
  onChange := fun listener hl h change => (hq.onChange listener hl h change).isQuiet
  onText := fun listener hl h text => (hq.onText listener hl h text).isQuiet

namespace Hub

/-- What is remembered when each listener was told of an event, once and in order. -/
def told {Event : Type} (h : Hub Memory) (event : Event) :
    List (Hub Memory → Event → Script Memory) → Memory
  | [] => h.memory
  | listener :: rest =>
    told { h with memory := (listener h event).memoryAfter h.memory } event rest

variable (serve : Service Memory)

theorem runScript_eq {script : Script Memory} (hs : script.OnlyRemembers) (h : Hub Memory) :
    runScript serve h script = some ({ h with memory := script.memoryAfter h.memory }, none) := by
  induction hs generalizing h with
  | done => rfl
  | @remember change next _ ih => exact ih { h with memory := change h.memory }

theorem tellText_eq_told {listeners : List (Hub Memory → String → Script Memory)}
    (hq : ∀ listener ∈ listeners, ∀ h text, (listener h text).OnlyRemembers) (text : String)
    (h : Hub Memory) :
    tellText serve text listeners h = some ({ h with memory := h.told text listeners }, none) := by
  induction listeners generalizing h with
  | nil => rfl
  | cons listener rest ih =>
    rw [tellText, runScript_eq serve (hq listener List.mem_cons_self h text) h]
    exact ih (fun l hl => hq l (List.mem_cons_of_mem _ hl)) _

theorem tellChange_eq_told {listeners : List (Hub Memory → Change → Script Memory)}
    (hq : ∀ listener ∈ listeners, ∀ h change, (listener h change).OnlyRemembers) (change : Change)
    (h : Hub Memory) :
    tellChange serve change listeners h = some { h with memory := h.told change listeners } := by
  induction listeners generalizing h with
  | nil => rfl
  | cons listener rest ih =>
    rw [tellChange, runScript_eq serve (hq listener List.mem_cons_self h change) h]
    exact ih (fun l hl => hq l (List.mem_cons_of_mem _ hl)) _

/-- The listeners of the text are told of a write exactly if it brings another text. -/
theorem writeText_eq_told {ls : Listeners Memory} (hq : ls.OnlyRemember) (h : Hub Memory) :
    writeText serve ls h = some (h.written
      (if Diagram.write h.store.document = h.coordinator.text then h.memory
        else h.writing.told (Diagram.write h.store.document) ls.onText), none) := by
  unfold writeText written writing withPhase
  dsimp only
  split_ifs with ht
  · rw [ht]
  · rw [tellText_eq_told serve hq.onText]

end Hub

end Listening

def StoreOp.IsDeferred (op : StoreOp) (s : Store) : Prop :=
  ∃ change : Change, (op.run s).change = some change ∧ change.IsDeferred

/-- The calls that let the quiet period go on: time passes, the current text comes again, and operations
announce moves or selections, or nothing. -/
inductive Call.Passes (h : Hub Memory) : Call → Prop
  | advance (ms : Nat) : Passes h (.advance ms)
  | setText : Passes h (.setText h.coordinator.text)
  | store {op : StoreOp} (hop : ∀ change ∈ (op.run h.store).change,
      change = .selection ∨ change = .position) : Passes h (.store op)

def Call.duration : Call → Nat
  | .advance ms => ms
  | _ => 0

namespace Hub

/-- Changes follow one another, each before the quiet period after the one before is over. The number is
the time of the last one. -/
inductive Burst (ls : Listeners Memory) (h₀ : Hub Memory) : Nat → Hub Memory → Prop
  | first {h : Hub Memory} {op : StoreOp} {depth : Nat} {reply : Reply}
      (hop : op.IsDeferred h₀.store) (hs : serve ls depth h₀ (.store op) = some (h, reply)) :
      Burst ls h₀ h₀.timers.now h
  | again {last : Nat} {h h' : Hub Memory} {op : StoreOp} {depth : Nat} {reply : Reply}
      (hb : Burst ls h₀ last h) (hop : op.IsDeferred h.store)
      (hs : serve ls depth h (.store op) = some (h', reply)) : Burst ls h₀ h.timers.now h'
  | pass {last : Nat} {h h' : Hub Memory} {call : Call} {depth : Nat} {reply : Reply}
      (hb : Burst ls h₀ last h) (hc : call.Passes h)
      (hsoon : ∀ delay, h₀.coordinator.delay = some delay →
        h.timers.now + call.duration < last + delay)
      (hs : serve ls depth h call = some (h', reply)) : Burst ls h₀ last h'

/-- The graph was written once since `h₀`, and nothing is left to be done. From one memory to the other
each listener of the text was told the text, once, if it is another one, and else none. -/
structure IsWrittenOnce (ls : Listeners Memory) (h₀ : Hub Memory) (memory memory' : Memory)
    (h : Hub Memory) : Prop extends IsAtRest h where
  writes : h.coordinator.writes = h₀.coordinator.writes + 1
  text : h.coordinator.text = Diagram.write h.store.document
  told : memory' = if h.coordinator.text = h₀.coordinator.text then memory
    else { h.withPhase .writingText with memory := memory }.told h.coordinator.text ls.onText

/-- What holds all through a burst: the one timer is due when the quiet period after the last change is
over, which it is not yet, and nothing was written. -/
structure IsBursting (start : Coordinator) (last : Nat) (h : Hub Memory) : Prop where
  pending : ∃ id, h.coordinator.pending = some id ∧
    h.timers.live = [⟨id, start.delay.map (last + ·)⟩]
  phase : h.coordinator.phase = .waiting
  delay : h.coordinator.delay = start.delay
  text : h.coordinator.text = start.text
  writes : h.coordinator.writes = start.writes
  soon : ∀ delay, start.delay = some delay → h.timers.now < last + delay

variable {h₀ h h' : Hub Memory} {start : Coordinator} {last : Nat}

section Order

theorem IsBursting.isOrderly (hb : IsBursting start last h) : h.IsOrderly := by
  obtain ⟨id, hpending, hlive⟩ := hb.pending
  refine ⟨fun timer hmem => ?_, .inr hb.phase⟩
  rw [hlive, List.mem_singleton] at hmem
  rw [hmem, hpending]

theorem IsBursting.trans {now : Nat} (hb : IsBursting start last h)
    (hb' : IsBursting h.coordinator now h') : IsBursting start now h' where
  pending := hb.delay ▸ hb'.pending
  phase := hb'.phase
  delay := hb'.delay.trans hb.delay
  text := hb'.text.trans hb.text
  writes := hb'.writes.trans hb.writes
  soon := hb.delay ▸ hb'.soon

theorem now_cancelPending (h : Hub Memory) : h.cancelPending.timers.now = h.timers.now := by
  rw [cancelPending_eq]
  cases h.coordinator.pending <;> rfl

theorem IsOrderly.isBursting_schedule (ho : h.IsOrderly) (hpos : h.coordinator.delay ≠ some 0)
    (memory : Memory) :
    IsBursting h.coordinator h.timers.now { h.schedule with memory := memory } := by
  have hdelay : h.cancelPending.coordinator.delay = h.coordinator.delay := by rw [cancelPending_eq]
  have hlive : h.schedule.timers.live = [⟨h.cancelPending.timers.nextId,
      h.coordinator.delay.map (h.timers.now + ·)⟩] := by
    change h.cancelPending.timers.live ++ [⟨_, h.cancelPending.coordinator.delay.map
      (h.cancelPending.timers.now + ·)⟩] = _
    rw [live_cancelPending ho.timers, hdelay, now_cancelPending, List.nil_append]
  refine ⟨⟨h.cancelPending.timers.nextId, rfl, hlive⟩, rfl, hdelay, ?_, ?_, fun delay hd => ?_⟩
  · change h.cancelPending.coordinator.text = _
    rw [cancelPending_eq]
  · change h.cancelPending.coordinator.writes = _
    rw [cancelPending_eq]
  · change h.cancelPending.timers.now < _
    rw [now_cancelPending]
    have hne : delay ≠ 0 := fun hzero => hpos (hzero ▸ hd)
    omega

end Order

section Calls

variable {onChange : List (Hub Memory → Change → Script Memory)}
  (hq : ∀ listener ∈ onChange, ∀ h change, (listener h change).OnlyRemembers)
include hq

theorem serveWith_of_isDeferred (ho : h.IsOrderly) (hpos : h.coordinator.delay ≠ some 0)
    {op : StoreOp} (hop : op.IsDeferred h.store) : ∃ h' reply,
      (∀ (serve : Service Memory) onText,
        serveWith serve ⟨onChange, onText⟩ h (.store op) = some (h', reply)) ∧
      IsBursting h.coordinator h.timers.now h' := by
  obtain ⟨change, hchange, hdeferred⟩ := hop
  obtain ⟨h₁, heq⟩ : ∃ h₁ : Hub Memory, h₁ = { h with store := (op.run h.store).store } := ⟨_, rfl⟩
  have hphase : h₁.coordinator.phase = .idle ∨ h₁.coordinator.phase = .waiting := heq ▸ ho.phase
  have hscheduled : IsBursting h.coordinator h.timers.now
      { h₁.schedule with memory := h₁.schedule.told change onChange } := by
    have ho₁ : h₁.IsOrderly := by
      rw [heq]
      exact ⟨ho.timers, ho.phase⟩
    have hbursting := ho₁.isBursting_schedule (heq ▸ hpos) (h₁.schedule.told change onChange)
    rw [heq] at hbursting ⊢
    exact hbursting
  refine ⟨_, .stored (op.run h.store).result, fun serve onText => ?_, hscheduled⟩
  have htake : takeChange serve ⟨onChange, onText⟩ change h₁ = some h₁.schedule :=
    takeChange_schedule serve hphase hdeferred
  simp only [serveWith, operate, ← heq, hchange, announce, htake, tellChange_eq_told serve hq,
    Option.map_some]

theorem serveWith_of_passes (hp : h.coordinator.phase = .waiting) {op : StoreOp}
    (hop : ∀ change ∈ (op.run h.store).change, change = .selection ∨ change = .position) :
    ∃ memory, ∀ (serve : Service Memory) onText,
      serveWith serve ⟨onChange, onText⟩ h (.store op) =
        some ({ h with store := (op.run h.store).store, memory := memory },
          .stored (op.run h.store).result) := by
  cases hchange : (op.run h.store).change with
  | none => exact ⟨h.memory, fun serve onText => by simp only [serveWith, operate, hchange]; rfl⟩
  | some change =>
    refine ⟨told { h with store := (op.run h.store).store } change onChange,
      fun serve onText => ?_⟩
    have htake : takeChange serve ⟨onChange, onText⟩ change
        { h with store := (op.run h.store).store } =
          some { h with store := (op.run h.store).store } := by
      rcases hop change hchange with rfl | rfl <;> simp only [takeChange, hp]
    simp only [serveWith, operate, hchange, announce, htake, tellChange_eq_told serve hq,
      Option.map_some]

/-- Whatever else comes meanwhile leaves the quiet period as it is. -/
theorem IsBursting.serveWith_of_passes (hb : IsBursting start last h) {call : Call}
    (hc : call.Passes h) (hsoon : ∀ delay, start.delay = some delay →
      h.timers.now + call.duration < last + delay) : ∃ h' reply,
      (∀ (serve : Service Memory) onText,
        Hub.serveWith serve ⟨onChange, onText⟩ h call = some (h', reply)) ∧
      IsBursting start last h' := by
  cases hc with
  | advance ms =>
    obtain ⟨id, hpending, hlive⟩ := hb.pending
    have hdue : (h.timers.advance ms).due = [] := by
      have hlater : (start.delay.map (last + ·)).any (· ≤ h.timers.now + ms) = false := by
        cases hd : start.delay with
        | none => rfl
        | some delay =>
          have hlt : h.timers.now + ms < last + delay := hsoon delay hd
          simpa using hlt
      simp [Timers.due, Timers.advance, hlive, hlater]
    refine ⟨{ h with timers := h.timers.advance ms }, .done, fun serve onText => ?_, ?_⟩
    · simp only [Hub.serveWith, hdue]
      rfl
    · exact ⟨⟨id, hpending, hlive⟩, hb.phase, hb.delay, hb.text, hb.writes, hsoon⟩
  | setText => exact ⟨h, .reading none, fun _ _ => if_pos rfl, hb⟩
  | store hop =>
    obtain ⟨memory, hserve⟩ := Hub.serveWith_of_passes hq hb.phase hop
    exact ⟨_, _, hserve, ⟨hb.pending, hb.phase, hb.delay, hb.text, hb.writes, hb.soon⟩⟩

end Calls

section Writes

variable {ls : Listeners Memory} (hq : ls.OnlyRemember) (serve : Service Memory)
include hq

theorem isWrittenOnce_written (hl : h.timers.live = []) (hp : h.coordinator.pending = none)
    (htext : h.coordinator.text = h₀.coordinator.text)
    (hwrites : h.coordinator.writes = h₀.coordinator.writes) :
    ∃ h', writeText serve ls h = some (h', none) ∧ IsWrittenOnce ls h₀ h.memory h'.memory h' ∧
      h'.store = h.store ∧ h'.timers = h.timers := by
  refine ⟨_, writeText_eq_told serve hq h, ⟨⟨hl, hp, rfl⟩, ?_, rfl, ?_⟩, rfl, rfl⟩
  · change h.coordinator.writes + 1 = _
    rw [hwrites]
  · change (if Diagram.write h.store.document = h.coordinator.text then _ else _) =
      if Diagram.write h.store.document = h₀.coordinator.text then _ else _
    rw [htext]
    rfl

theorem IsBursting.serveWith_advance (hb : IsBursting h₀.coordinator last h) {delay ms : Nat}
    (hd : h₀.coordinator.delay = some delay) (hms : last + delay ≤ h.timers.now + ms) :
    ∃ h', Hub.serveWith serve ls h (.advance ms) = some (h', .done) ∧
      IsWrittenOnce ls h₀ h.memory h'.memory h' ∧ h'.store = h.store ∧
      h'.timers.now = h.timers.now + ms := by
  obtain ⟨id, hpending, hlive⟩ := hb.pending
  rw [hd] at hlive
  -- The one live timer is due, and firing it takes it away.
  have hdue : (h.timers.advance ms).due = [⟨id, some (last + delay)⟩] := by
    simp [Timers.due, Timers.advance, hlive, hms]
  have hremoved : ((h.timers.advance ms).remove id).live = [] := by
    simp [Timers.advance, Timers.remove, hlive]
  obtain ⟨h', hwrite, hwritten, hstore, htimers⟩ := isWrittenOnce_written hq serve
    (h := fired { h with timers := h.timers.advance ms } id) hremoved rfl hb.text hb.writes
  refine ⟨h', ?_, hwritten, hstore, ?_⟩
  · have hisLive : (h.timers.advance ms).isLive id = true := by
      simp [Timers.isLive, Timers.advance, hlive]
    unfold fired at hwrite
    simp only [Hub.serveWith, hdue, fire, hisLive, if_true, hwrite]
  · rw [htimers]
    rfl

theorem IsBursting.serveWith_setDirection (hb : IsBursting h₀.coordinator last h)
    (direction : Direction) :
    ∃ h', Hub.serveWith serve ls h (.store (.setDirection (.ok direction))) =
        some ({ h' with memory := h'.told .direction ls.onChange }, .stored (.ok true)) ∧
      IsWrittenOnce ls h₀ h.memory h'.memory h' ∧ h'.timers.nextId = h.timers.nextId := by
  obtain ⟨h₁, heq⟩ : ∃ h₁ : Hub Memory,
      h₁ = { h with store := (h.store.setDirection (.ok direction)).store } := ⟨_, rfl⟩
  have hcoordinator : h₁.coordinator = h.coordinator := by rw [heq]
  have hlive : h₁.cancelPending.timers.live = [] := by
    rw [heq]
    exact live_cancelPending hb.isOrderly.timers
  have htext : h₁.cancelPending.coordinator.text = h₀.coordinator.text := by
    rw [cancelPending_eq, hcoordinator]
    exact hb.text
  have hwrites : h₁.cancelPending.coordinator.writes = h₀.coordinator.writes := by
    rw [cancelPending_eq, hcoordinator]
    exact hb.writes
  obtain ⟨h', hwrite, hwritten, -, htimers⟩ := isWrittenOnce_written hq serve hlive
    (pending_cancelPending h₁) htext hwrites
  have hnext : h'.timers.nextId = h.timers.nextId := by
    rw [htimers, nextId_cancelPending, heq]
  have hmemory : h₁.cancelPending.memory = h.memory := by
    rw [cancelPending_eq, heq]
  have htake : takeChange serve ls .direction h₁ = some h' := by
    have hphase : h₁.coordinator.phase = .waiting := hcoordinator ▸ hb.phase
    simp only [takeChange, hphase, hwrite, Option.map_some]
  refine ⟨h', ?_, hmemory ▸ hwritten, hnext⟩
  have hrun : (StoreOp.setDirection (.ok direction)).run h.store =
      (h.store.setDirection (.ok direction)).store.changed .direction := rfl
  have hstore : ({ h with store := (h.store.setDirection (.ok direction)).store } : Hub Memory) = h₁ :=
    heq.symm
  simp only [Hub.serveWith, operate, hrun, Store.changed, hstore, announce, htake,
    tellChange_eq_told serve hq.onChange, Option.map_some]

end Writes

section Runs

open Config (Onward)

variable {ls : Listeners Memory}

theorem served_alike {depth : Nat} {call : Call} {h₁ : Hub Memory} {reply reply₁ : Reply}
    (halike : ∀ (serve : Service Memory) onText,
      serveWith serve ⟨ls.onChange, onText⟩ h call = some (h₁, reply₁))
    (hs : serve ls depth h call = some (h', reply)) :
    h' = h₁ ∧ ∀ onText, serve ⟨ls.onChange, onText⟩ depth h call = some (h', reply) := by
  cases depth with
  | zero => cases hs
  | succ depth =>
    cases (halike (serve ls depth) ls.onText).symm.trans hs
    exact ⟨rfl, fun onText => halike (serve ⟨ls.onChange, onText⟩ depth) onText⟩

variable (hq : ls.OnlyRemember)
include hq

/-- A burst is the same whoever listens to the text. -/
theorem Burst.isBursting (ho : h₀.IsOrderly) (hpos : h₀.coordinator.delay ≠ some 0)
    (hb : Burst ls h₀ last h) :
    IsBursting h₀.coordinator last h ∧ ∀ onText, Burst ⟨ls.onChange, onText⟩ h₀ last h := by
  induction hb with
  | first hop hs =>
    obtain ⟨h₁, reply₁, halike, hbursting⟩ := serveWith_of_isDeferred hq.onChange ho hpos hop
    obtain ⟨rfl, hsame⟩ := served_alike halike hs
    exact ⟨hbursting, fun onText => .first hop (hsame onText)⟩
  | again _ hop hs ih =>
    -- Such a change begins a burst of its own, at which text and count are still those of before.
    obtain ⟨hbursting, hburst⟩ := ih
    obtain ⟨h₁, reply₁, halike, hagain⟩ := serveWith_of_isDeferred hq.onChange hbursting.isOrderly
      (hbursting.delay ▸ hpos) hop
    obtain ⟨rfl, hsame⟩ := served_alike halike hs
    exact ⟨hbursting.trans hagain, fun onText => .again (hburst onText) hop (hsame onText)⟩
  | pass _ hc hsoon hs ih =>
    obtain ⟨hbursting, hburst⟩ := ih
    obtain ⟨h₁, reply₁, halike, hpassed⟩ := hbursting.serveWith_of_passes hq.onChange hc hsoon
    obtain ⟨rfl, hsame⟩ := served_alike halike hs
    exact ⟨hpassed, fun onText => .pass (hburst onText) hc hsoon (hsame onText)⟩

/-- Wherever it begins, let changes follow one another. As long as the quiet period after the
last one is not over, every call is served, nothing is written, and no listener of the text has a part in
what happens. Once the clock reaches its end, the graph is written, once. So it is at once where the
direction is changed before, and then no timer that was set until then ever goes off. -/
theorem Burst.writes_once (ha : Arises ls h₀) (hpos : h₀.coordinator.delay ≠ some 0) (hb : Burst ls h₀ last h) :
    (∀ depth call, ∃ h' reply, serve ls (depth + 1) h call = some (h', reply)) ∧
    (h.coordinator.writes = h₀.coordinator.writes ∧ h.coordinator.text = h₀.coordinator.text ∧
      ∀ onText, Burst ⟨ls.onChange, onText⟩ h₀ last h) ∧
    (∀ depth delay ms, h₀.coordinator.delay = some delay → last + delay ≤ h.timers.now + ms →
      ∃ h', serve ls (depth + 1) h (.advance ms) = some (h', .done) ∧
        IsWrittenOnce ls h₀ h.memory h'.memory h' ∧ h'.store = h.store ∧
        h'.timers.now = h.timers.now + ms) ∧
    ∀ depth direction, ∃ h',
      serve ls (depth + 1) h (.store (.setDirection (.ok direction))) =
        some ({ h' with memory := h'.told .direction ls.onChange }, .stored (.ok true)) ∧
      IsWrittenOnce ls h₀ h.memory h'.memory h' ∧
      ∀ c, Onward ls ⟨{ h' with memory := h'.told .direction ls.onChange },
          .reply (.stored (.ok true)), []⟩ c →
        ∀ id < h.timers.nextId, ¬c.Fires id := by
  obtain ⟨hbursting, hsame⟩ := hb.isBursting hq (ha.isOrderly hq.areQuiet) hpos
  refine ⟨fun depth call => ?_, ⟨hbursting.writes, hbursting.text, hsame⟩,
    fun depth delay ms hd hms => ?_, fun depth direction => ?_⟩
  · obtain ⟨h', reply, hserve, -⟩ :=
      hbursting.isOrderly.serveWith hq.areQuiet (serve ls depth) call
    exact ⟨h', reply, hserve⟩
  · exact hbursting.serveWith_advance hq (serve ls depth) hd hms
  · obtain ⟨h', hserve, hwritten, hnext⟩ :=
      hbursting.serveWith_setDirection hq (serve ls depth) direction
    refine ⟨h', hserve, hwritten, fun c ho id hid => ?_⟩
    exact ho.not_fires (Config.setSince_of_live_eq_nil hnext.ge hwritten.live) hid

end Runs

/-- Counts the texts that are written. -/
def countingTexts : Listeners Nat where
  onChange := []
  onText := [fun _ _ => .remember (· + 1) .done]

def afterCall (h : Hub Nat) (call : Call) : Hub Nat :=
  ((serve countingTexts 1 h call).map (·.1)).getD h

/-- A node is added to the graph of a loop, after 200 ms another graph takes its place, and after 299 ms
more a node of it is selected. -/
def loopBurst (n : Nat) : Hub Nat :=
  ([.store (.addNode "C" "C" (.ok .rectangle) none none), .advance 200,
    .store (.replaceAll Store.loopDocument), .advance 299,
    .store (.setSelection ["A"] [])].take n).foldl afterCall (.start Store.loopDocument (some 300) 0)

theorem exists_serve_afterCall (h : Hub Nat) (call : Call)
    (hs : (serve countingTexts 1 h call).isSome) :
    ∃ reply, serve countingTexts 1 h call = some (afterCall h call, reply) := by
  unfold afterCall
  obtain ⟨⟨h', reply⟩, heq⟩ := Option.isSome_iff_exists.mp hs
  rw [heq]
  exact ⟨reply, rfl⟩

/-- One millisecond later the two changes are written together, and the listener is told once. -/
theorem writes_once_loopBurst : Burst countingTexts (loopBurst 0) 200 (loopBurst 5) ∧
    (loopBurst 5).timers.now = 499 ∧ ∃ h',
      serve countingTexts 1 (loopBurst 5) (.advance 1) = some (h', .done) ∧
      h'.coordinator.writes = 1 ∧ h'.memory = 1 := by
  have hq : countingTexts.OnlyRemember := by
    constructor
    · simp [countingTexts]
    · intro listener hl h text
      rw [List.mem_singleton.mp hl]
      exact .remember .done
  have harises : Arises countingTexts (loopBurst 0) := .start _ (some 300) 0
  have hpos : (loopBurst 0).coordinator.delay ≠ some 0 := by decide
  obtain ⟨_, hadd⟩ := exists_serve_afterCall (loopBurst 0)
    (.store (.addNode "C" "C" (.ok .rectangle) none none)) (by decide +kernel)
  obtain ⟨_, hwait⟩ := exists_serve_afterCall (loopBurst 1) (.advance 200) (by decide +kernel)
  obtain ⟨_, hreplace⟩ := exists_serve_afterCall (loopBurst 2)
    (.store (.replaceAll Store.loopDocument)) (by decide +kernel)
  obtain ⟨_, hagain⟩ := exists_serve_afterCall (loopBurst 3) (.advance 299) (by decide +kernel)
  obtain ⟨_, hselect⟩ := exists_serve_afterCall (loopBurst 4) (.store (.setSelection ["A"] []))
    (by decide +kernel)
  have hone : Burst countingTexts (loopBurst 0) 0 (loopBurst 1) :=
    .first ⟨.nodes, rfl, .inl rfl⟩ hadd
  have htwo : Burst countingTexts (loopBurst 0) 0 (loopBurst 2) := by
    refine .pass hone (.advance 200) (fun delay hd => ?_) hwait
    cases hd
    decide +kernel
  have hlast : (loopBurst 2).timers.now = 200 := by decide +kernel
  have hthree : Burst countingTexts (loopBurst 0) 200 (loopBurst 3) := by
    rw [← hlast]
    exact .again htwo ⟨.replaced, rfl, .inr (.inr rfl)⟩ hreplace
  have hfour : Burst countingTexts (loopBurst 0) 200 (loopBurst 4) := by
    refine .pass hthree (.advance 299) (fun delay hd => ?_) hagain
    cases hd
    decide +kernel
  have hfive : Burst countingTexts (loopBurst 0) 200 (loopBurst 5) := by
    refine .pass hfour (.store fun change hc => ?_) (fun delay hd => ?_) hselect
    · cases hc
      exact .inl rfl
    · cases hd
      decide +kernel
  obtain ⟨-, -, hend, -⟩ := Burst.writes_once hq harises hpos hfive
  have hnow : (loopBurst 5).timers.now = 499 := by decide +kernel
  have hmemory : (loopBurst 5).memory = 0 := by decide +kernel
  obtain ⟨h', hserve, hwritten, -, -⟩ := hend 0 300 1 rfl (by rw [hnow])
  refine ⟨hfive, hnow, h', hserve, hwritten.writes, ?_⟩
  have hnew : h'.coordinator.text ≠ (loopBurst 0).coordinator.text := by
    rw [hwritten.text]
    exact Diagram.write_ne_empty _
  rw [hwritten.told, if_neg hnew, hmemory]
  rfl

end Hub
end Flowchart.Live
