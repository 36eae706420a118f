import Flowchart.Proofs.Live.Pending
import Flowchart.Proofs.Live.Served

/-! What holds at every moment of every run, whatever listeners do: the timers that are live, and how they
go with the phase of the coordinator and the reads and writes under way. -/
namespace Flowchart.Live

variable {Memory : Type}

/-- The change may concern the text: it is more than a selection or a move. -/
def Change.IsContent (change : Change) : Prop :=
  change ≠ .selection ∧ change ≠ .position

/-- The change is written when the quiet period after it is over. -/
def Change.IsDeferred (change : Change) : Prop :=
  change = .nodes ∨ change = .edges ∨ change = .replaced

namespace Hub

def IsSyncing (h : Hub Memory) : Prop :=
  h.coordinator.phase = .readingText ∨ h.coordinator.phase = .writingText

/-- All timers that are live were set when so many had been set before, or later. -/
def SetSince (n : Nat) (h : Hub Memory) : Prop :=
  n ≤ h.timers.nextId ∧ ∀ timer ∈ h.timers.live, n ≤ timer.id

theorem pending_cancelPending (h : Hub Memory) : h.cancelPending.coordinator.pending = none := by
  rw [cancelPending_eq]

theorem nextId_cancelPending (h : Hub Memory) :
    h.cancelPending.timers.nextId = h.timers.nextId := by
  rw [cancelPending_eq]
  cases h.coordinator.pending <;> rfl

theorem live_cancelPending_subset (h : Hub Memory) {timer : Timer}
    (ht : timer ∈ h.cancelPending.timers.live) : timer ∈ h.timers.live := by
  rw [cancelPending_eq] at ht
  cases hp : h.coordinator.pending with
  | none => simpa [hp] using ht
  | some id =>
    rw [hp] at ht
    exact List.mem_of_mem_filter ht

theorem SetSince.cancelPending {h : Hub Memory} {n : Nat} (hs : h.SetSince n) :
    h.cancelPending.SetSince n :=
  ⟨(nextId_cancelPending h).symm ▸ hs.1, fun timer hmem =>
    hs.2 timer (live_cancelPending_subset h hmem)⟩

theorem SetSince.schedule {h : Hub Memory} {n : Nat} (hs : h.cancelPending.SetSince n) :
    h.schedule.SetSince n := by
  refine ⟨Nat.le_succ_of_le hs.1, fun timer hmem => ?_⟩
  rcases List.mem_append.mp hmem with hold | hnew
  · exact hs.2 timer hold
  · cases List.mem_singleton.mp hnew
    exact hs.1

end Hub

def Frame.isSync : Frame Memory → Bool
  | write => true
  | read _ => true
  | _ => false

/-- How many reads and writes are under way, one inside the other. -/
def Config.syncs (c : Config Memory) : Nat :=
  c.stack.countP Frame.isSync

/-- The moments that follow, when the outermost call may be followed by any other one. -/
inductive Config.Onward (ls : Listeners Memory) (c : Config Memory) : Config Memory → Prop
  | refl : Onward ls c c
  | step {c' : Config Memory} (ho : Onward ls c c') : Onward ls c (c'.step ls)
  | call {h : Hub Memory} {reply : Reply} (ho : Onward ls c ⟨h, .reply reply, []⟩) (call : Call) :
      Onward ls c ⟨h, .serve call, []⟩

/-- The moments of the runs of a coordinator that was started on a store of any kind. -/
def Config.IsMoment (ls : Listeners Memory) (c : Config Memory) : Prop :=
  ∃ store delay memory, Onward ls ⟨⟨store, .start delay, .start, memory⟩, .reply .done, []⟩ c

namespace Config

def IsScheduling (c : Config Memory) : Prop :=
  ¬c.hub.IsSyncing ∧ ∃ change : Change, c.task = .announce change ∧ change.IsDeferred

def IsEdit (c : Config Memory) : Prop :=
  ∃ text, c.task = .serve (.setText text) ∧ text ≠ c.hub.coordinator.text

/-- How the coordinator takes a change. -/
inductive Taken (ls : Listeners Memory) (h : Hub Memory) (stack : List (Frame Memory)) :
    Change → Config Memory → Prop
  | reading {change : Change} (hp : h.coordinator.phase = .readingText) :
      Taken ls h stack change
        ⟨{ h with coordinator :=
          { h.coordinator with suppressed := h.coordinator.suppressed + 1 } },
          .tellChange change ls.onChange, stack⟩
  | writing {change : Change} (hp : h.coordinator.phase = .writingText) :
      Taken ls h stack change ⟨h, .tellChange change ls.onChange, stack⟩
  | ignore {change : Change} (hnot : ¬h.IsSyncing) (hc : ¬change.IsContent) :
      Taken ls h stack change ⟨h, .tellChange change ls.onChange, stack⟩
  | write (hnot : ¬h.IsSyncing) :
      Taken ls h stack .direction (beginWrite ls h.cancelPending (.direction :: stack))
  | schedule {change : Change} (hnot : ¬h.IsSyncing) (hc : change.IsDeferred) :
      Taken ls h stack change ⟨h.schedule, .tellChange change ls.onChange, stack⟩

/-- What a step does to timers and phase, and to the number of reads and writes under way. Only an edit
can begin during a read or a write, unless a timer is left there. -/
inductive Move (c c' : Config Memory) : Prop
  | keep (hsyncs : c'.syncs = c.syncs) (hphase : c'.hub.coordinator.phase = c.hub.coordinator.phase)
      (hpending : c'.hub.coordinator.pending = c.hub.coordinator.pending)
      (hlive : c'.hub.timers.live = c.hub.timers.live)
      (hnext : c'.hub.timers.nextId = c.hub.timers.nextId)
  | schedule (hs : c.IsScheduling) (hsyncs : c'.syncs = c.syncs) (hhub : c'.hub = c.hub.schedule)
  | cancel (hsyncs : c'.syncs = c.syncs) (hhub : c'.hub = c.hub.cancelPending)
  | refuse (hedit : c.IsEdit) (hsyncs : c'.syncs = c.syncs)
      (hphase : c'.hub.coordinator.phase = .idle)
      (hpending : c'.hub.coordinator.pending = none)
      (htimers : c'.hub.timers = c.hub.cancelPending.timers)
  | enter (hsyncs : c'.syncs = c.syncs + 1) (hsyncing : c'.hub.IsSyncing)
      (hfree : c.IsEdit ∨ (c'.hub.coordinator.phase = .writingText ∧
        (c.hub.IsSyncing → c.hub.coordinator.pending ≠ none ∨ c.hub.timers.live ≠ [])))
      (hpending : c'.hub.coordinator.pending = none)
      (htimers : c'.hub.timers = c.hub.cancelPending.timers ∨
        ∃ id, c.hub.timers.isLive id ∧ c'.hub.timers = c.hub.timers.remove id)
  | leave (hsyncs : c.syncs = c'.syncs + 1) (hphase : c'.hub.coordinator.phase = .idle)
      (hpending : c'.hub.coordinator.pending = c.hub.coordinator.pending)
      (htimers : c'.hub.timers = c.hub.timers)

section Steps

variable {ls : Listeners Memory}

theorem Move.stay {c c' : Config Memory} (hsyncs : c'.syncs = c.syncs) (hhub : c'.hub = c.hub) :
    Move c c' :=
  .keep hsyncs (by rw [hhub]) (by rw [hhub]) (by rw [hhub]) (by rw [hhub])

theorem syncs_push (h : Hub Memory) (task : Task Memory) {frame : Frame Memory}
    (hf : frame.isSync = false) (stack : List (Frame Memory)) :
    (⟨h, task, frame :: stack⟩ : Config Memory).syncs = stack.countP Frame.isSync :=
  List.countP_cons_of_neg (by simp [hf])

theorem syncs_beginWrite (h : Hub Memory) {frame : Frame Memory} (hf : frame.isSync = false)
    (stack : List (Frame Memory)) :
    (beginWrite ls h (frame :: stack)).syncs = stack.countP Frame.isSync + 1 := by
  change (Frame.write :: frame :: stack).countP Frame.isSync = _
  rw [List.countP_cons_of_pos rfl, List.countP_cons_of_neg (by simp [hf])]

theorem move_beginWrite {h : Hub Memory} (hfree : h.IsSyncing → h.coordinator.pending ≠ none)
    (task : Task Memory) {frame : Frame Memory} (hf : frame.isSync = false)
    (stack : List (Frame Memory)) :
    Move ⟨h, task, stack⟩ (beginWrite ls h.cancelPending (frame :: stack)) :=
  .enter (syncs_beginWrite _ hf stack) (.inr rfl) (.inr ⟨rfl, fun hs => .inl (hfree hs)⟩)
    (Hub.pending_cancelPending h) (.inl rfl)

theorem move_beginRead {h : Hub Memory} {text : String} (ht : text ≠ h.coordinator.text)
    (stack : List (Frame Memory)) :
    Move ⟨h, .serve (.setText text), stack⟩ (beginRead h text stack) := by
  have hedit : IsEdit (⟨h, .serve (.setText text), stack⟩ : Config Memory) := ⟨text, rfl, ht⟩
  have hpending := Hub.pending_cancelPending h
  unfold beginRead
  cases Diagram.readArranged text with
  | error e => exact .refuse hedit rfl rfl hpending rfl
  | ok outcome =>
    cases outcome with
    | error e => exact .refuse hedit rfl rfl hpending rfl
    | ok reading =>
      exact .enter (List.countP_cons_of_pos rfl) (.inl rfl) (.inl hedit) hpending (.inl rfl)

theorem taken_beginAnnounce (ls : Listeners Memory) (h : Hub Memory) (change : Change)
    (stack : List (Frame Memory)) : Taken ls h stack change (beginAnnounce ls h change stack) := by
  unfold beginAnnounce
  cases hp : h.coordinator.phase with
  | readingText => exact .reading hp
  | writingText => exact .writing hp
  | idle | waiting =>
    have hnot : ¬h.IsSyncing := by simp [Hub.IsSyncing, hp]
    cases change with
    | selection => exact .ignore hnot fun hc => hc.1 rfl
    | position => exact .ignore hnot fun hc => hc.2 rfl
    | direction => exact .write hnot
    | nodes => exact .schedule hnot (.inl rfl)
    | edges => exact .schedule hnot (.inr (.inl rfl))
    | replaced => exact .schedule hnot (.inr (.inr rfl))

theorem Taken.move {h : Hub Memory} {change : Change} {stack : List (Frame Memory)}
    {c : Config Memory} (ht : Taken ls h stack change c) : Move ⟨h, .announce change, stack⟩ c := by
  cases ht with
  | reading _ => exact .keep rfl rfl rfl rfl rfl
  | writing _ => exact .stay rfl rfl
  | ignore _ _ => exact .stay rfl rfl
  | write hnot => exact move_beginWrite (absurd · hnot) _ rfl stack
  | schedule hnot hc => exact .schedule ⟨hnot, change, rfl, hc⟩ rfl rfl

theorem move_beginCall (h : Hub Memory) (call : Call) (stack : List (Frame Memory)) :
    Move ⟨h, .serve call, stack⟩ (beginCall ls h call stack) := by
  unfold beginCall
  cases call with
  | setText text =>
    dsimp only
    split_ifs with ht
    · exact .stay rfl rfl
    · exact move_beginRead ht stack
  | store op => exact .keep (syncs_push _ _ rfl stack) rfl rfl rfl rfl
  | flush =>
    dsimp only
    split_ifs with hp
    · exact .stay rfl rfl
    · exact move_beginWrite (fun _ hnone => hp (Option.isNone_iff_eq_none.mpr hnone)) _ rfl stack
  | cancel => exact .cancel rfl rfl
  | advance ms => exact .keep rfl rfl rfl rfl rfl

/-- Only the end of a read or a write changes the phase, and then it takes the frame of it away. -/
theorem resume_cases {h h' : Hub Memory} {frame : Frame Memory} {task task' : Task Memory}
    (hr : frame.resume ls h task = some (h', task')) :
    (frame.isSync = false ∧ h' = h) ∨
      (frame.isSync = true ∧ h'.coordinator.phase = .idle ∧
        h'.coordinator.pending = h.coordinator.pending ∧ h'.timers = h.timers) := by
  unfold Frame.resume at hr
  split at hr <;> cases hr
  case h_5 | h_6 => exact .inr ⟨rfl, rfl, rfl, rfl⟩
  all_goals exact .inl ⟨rfl, rfl⟩

theorem move_handBack (c : Config Memory) : Move c (c.handBack ls) := by
  obtain ⟨h, task, stack⟩ := c
  cases stack with
  | nil => exact .stay rfl rfl
  | cons frame stack =>
    unfold handBack
    dsimp only
    cases hresume : frame.resume ls h task with
    | none => exact .stay rfl rfl
    | some next =>
      obtain ⟨h', task'⟩ := next
      rcases resume_cases hresume with ⟨hf, rfl⟩ | ⟨hf, hphase, hpending, htimers⟩
      · exact .stay (syncs_push h' task hf stack).symm rfl
      · exact .leave (List.countP_cons_of_pos hf) hphase hpending htimers

theorem move_step (c : Config Memory) : Move c (c.step ls) := by
  obtain ⟨h, task, stack⟩ := c
  cases task with
  | serve call => exact move_beginCall h call stack
  | run script =>
    cases script with
    | done | raise fault => exact .stay rfl rfl
    | remember change next => exact .keep rfl rfl rfl rfl rfl
    | call call next => exact .stay (syncs_push h _ rfl stack) rfl
  | tellText text listeners =>
    cases listeners with
    | nil => exact .stay rfl rfl
    | cons listener rest => exact .stay (syncs_push h _ rfl stack) rfl
  | announce change => exact (taken_beginAnnounce ls h change stack).move
  | tellChange change listeners =>
    cases listeners with
    | nil => exact .stay rfl rfl
    | cons listener rest => exact .stay (syncs_push h _ rfl stack) rfl
  | fire due =>
    cases due with
    | nil => exact .stay rfl rfl
    | cons timer rest =>
      dsimp only [step]
      split_ifs with hl
      · obtain ⟨live, hmem, -⟩ := List.any_eq_true.mp hl
        exact .enter (syncs_beginWrite _ rfl stack) (.inr rfl)
          (.inr ⟨rfl, fun _ => .inr (List.ne_nil_of_mem hmem)⟩) rfl (.inr ⟨timer.id, hl, rfl⟩)
      · exact .stay rfl rfl
  | finish fault => exact move_handBack _
  | reply reply => exact move_handBack _

end Steps

section Timers

/-- The live timer is the pending one, and it is the only one; the coordinator waits only for a pending
timer; and during a read or a write no timer is pending. -/
structure IsSteady (c : Config Memory) : Prop where
  held : ∀ timer ∈ c.hub.timers.live, c.hub.coordinator.pending = some timer.id
  single : c.hub.timers.live.length ≤ 1
  old : ∀ id, c.hub.coordinator.pending = some id → id < c.hub.timers.nextId
  waiting : c.hub.coordinator.phase = .waiting → c.hub.coordinator.pending ≠ none
  syncing : c.hub.IsSyncing → c.hub.coordinator.pending = none ∧ 0 < c.syncs

variable {ls : Listeners Memory} {c c' : Config Memory} {n : Nat}

theorem IsSteady.not_isSyncing (hs : c.IsSteady) (hz : c.syncs = 0) : ¬c.hub.IsSyncing :=
  fun hsyncing => (hs.syncing hsyncing).2.ne' hz

theorem IsSteady.live_eq_nil (hs : c.IsSteady) (hp : c.hub.coordinator.pending = none) :
    c.hub.timers.live = [] := by
  refine List.eq_nil_iff_forall_not_mem.mpr fun timer hmem => ?_
  rw [hs.held timer hmem] at hp
  cases hp

theorem isSteady_of_pending_eq_none (hp : c.hub.coordinator.pending = none)
    (hl : c.hub.timers.live = []) (hwaiting : c.hub.coordinator.phase ≠ .waiting)
    (hsyncing : c.hub.IsSyncing → 0 < c.syncs) : c.IsSteady where
  held := by simp [hl]
  single := by simp [hl]
  old := by simp [hp]
  waiting := fun hphase => absurd hphase hwaiting
  syncing := fun hs => ⟨hp, hsyncing hs⟩

theorem IsSteady.move (hs : c.IsSteady) (hm : Move c c') : c'.IsSteady := by
  cases hm with
  | keep hsyncs hphase hpending hlive hnext =>
    constructor
    · rw [hlive, hpending]
      exact hs.held
    · rw [hlive]
      exact hs.single
    · rw [hpending, hnext]
      exact hs.old
    · rw [hphase, hpending]
      exact hs.waiting
    · unfold Hub.IsSyncing
      rw [hphase, hpending, hsyncs]
      exact hs.syncing
  | schedule _ _ hhub =>
    have hlive : c.hub.schedule.timers.live =
        [⟨c.hub.cancelPending.timers.nextId, c.hub.cancelPending.coordinator.delay.map
          (c.hub.cancelPending.timers.now + ·)⟩] := by
      change c.hub.cancelPending.timers.live ++ [_] = _
      rw [Hub.live_cancelPending hs.held, List.nil_append]
    constructor
    · rw [hhub]
      exact Hub.pending_schedule hs.held
    · simp [hhub, hlive]
    · rw [hhub]
      intro id hid
      cases hid
      exact Nat.lt_succ_self _
    · rw [hhub]
      exact fun _ hnone => nomatch hnone
    · rw [hhub]
      exact fun hsyncing => nomatch hsyncing
  | cancel hsyncs hhub =>
    refine isSteady_of_pending_eq_none ?_ ?_ ?_ fun hsyncing => ?_
    · rw [hhub, Hub.pending_cancelPending]
    · rw [hhub, Hub.live_cancelPending hs.held]
    · rw [hhub, Hub.cancelPending_eq]
      split_ifs with hp <;> simp [hp]
    · rw [hsyncs]
      rw [hhub, Hub.cancelPending_eq] at hsyncing
      by_cases hp : c.hub.coordinator.phase = .waiting
      · simp [Hub.IsSyncing, hp] at hsyncing
      · exact (hs.syncing (by simpa [Hub.IsSyncing, hp] using hsyncing)).2
  | refuse _ _ hphase hpending htimers =>
    refine isSteady_of_pending_eq_none hpending ?_ (by simp [hphase])
      (by simp [Hub.IsSyncing, hphase])
    rw [htimers, Hub.live_cancelPending hs.held]
  | enter hsyncs hsyncing _ hpending htimers =>
    refine isSteady_of_pending_eq_none hpending ?_ ?_ fun _ => hsyncs ▸ Nat.succ_pos _
    · rcases htimers with heq | ⟨id, hlive, heq⟩
      · rw [heq, Hub.live_cancelPending hs.held]
      · rw [heq]
        exact Hub.live_remove_eq_nil hs.held (Hub.pending_eq_of_isLive hs.held hlive)
    · rcases hsyncing with hp | hp <;> simp [hp]
  | leave _ hphase hpending htimers =>
    constructor
    · rw [htimers, hpending]
      exact hs.held
    · rw [htimers]
      exact hs.single
    · rw [htimers, hpending]
      exact hs.old
    · simp [hphase]
    · simp [Hub.IsSyncing, hphase]

theorem setSince_of_move (hs : c.hub.SetSince n) (hm : Move c c') : c'.hub.SetSince n := by
  have hcancelled := hs.cancelPending
  cases hm with
  | keep _ _ _ hlive hnext =>
    unfold Hub.SetSince
    rw [hlive, hnext]
    exact hs
  | schedule _ _ hhub =>
    rw [hhub]
    exact hcancelled.schedule
  | cancel _ hhub =>
    rw [hhub]
    exact hcancelled
  | refuse _ _ _ _ htimers =>
    unfold Hub.SetSince
    rw [htimers]
    exact hcancelled
  | enter _ _ _ _ htimers =>
    unfold Hub.SetSince
    rcases htimers with heq | ⟨id, _, heq⟩
    · rw [heq]
      exact hcancelled
    · rw [heq]
      exact ⟨hs.1, fun timer hmem => hs.2 timer (List.mem_of_mem_filter hmem)⟩
  | leave _ _ _ htimers =>
    unfold Hub.SetSince
    rw [htimers]
    exact hs

end Timers

section Runs

variable {ls : Listeners Memory} {c c' c'' : Config Memory} {n : Nat}

theorem Onward.trans (ho : Onward ls c c') (ho' : Onward ls c' c'') : Onward ls c c'' := by
  induction ho' with
  | refl => exact ho
  | step _ ih => exact .step ih
  | call _ call ih => exact .call ih call

theorem Onward.of_reaches (hr : Reaches ls c c') : Onward ls c c' := by
  obtain ⟨n, rfl⟩ := hr
  induction n with
  | zero => exact .refl
  | succ n ih =>
    rw [Function.iterate_succ_apply']
    exact .step ih

theorem Onward.isSteady (ho : Onward ls c c') (hs : c.IsSteady) : c'.IsSteady := by
  induction ho with
  | refl => exact hs
  | step _ ih => exact ih.move (move_step _)
  | call _ _ ih => exact ih.move (.stay rfl rfl)

theorem Onward.setSince (ho : Onward ls c c') (hs : c.hub.SetSince n) : c'.hub.SetSince n := by
  induction ho with
  | refl => exact hs
  | step _ ih => exact setSince_of_move ih (move_step _)
  | call _ _ ih => exact ih

theorem IsMoment.isSteady (hm : IsMoment ls c) : c.IsSteady := by
  obtain ⟨store, delay, memory, ho⟩ := hm
  refine ho.isSteady (isSteady_of_pending_eq_none rfl rfl ?_ ?_)
  · exact fun hphase => nomatch hphase
  · exact fun hsyncing => by rcases hsyncing with hp | hp <;> cases hp

theorem IsMoment.onward (hm : IsMoment ls c) (ho : Onward ls c c') : IsMoment ls c' := by
  obtain ⟨store, delay, memory, hstart⟩ := hm
  exact ⟨store, delay, memory, hstart.trans ho⟩

end Runs

end Config

namespace Hub

open Config (Onward Reaches IsMoment)

variable {ls : Listeners Memory} {h : Hub Memory} {c : Config Memory}

theorem Arises.exists_isMoment (ha : Arises ls h) : ∃ reply, IsMoment ls ⟨h, .reply reply, []⟩ := by
  induction ha with
  | start store delay memory => exact ⟨.done, store, delay, memory, .refl⟩
  | @step h h' call depth reply _ hs ih =>
    obtain ⟨earlier, hm⟩ := ih
    have hcall : Onward ls ⟨h, .reply earlier, []⟩ ⟨h, .serve call, []⟩ := .call .refl call
    have hrun := Onward.of_reaches (isRun_serve depth h call h' reply hs [])
    exact ⟨reply, hm.onward (hcall.trans hrun)⟩

/-- Every moment between calls is that of a hub which arises, and every other one belongs to the run of
a call on such a hub. -/
theorem exists_arises_of_isMoment (hm : IsMoment ls c) : ∃ h, Arises ls h ∧
    ((∃ reply, c = ⟨h, .reply reply, []⟩) ∨ ∃ call, Reaches ls ⟨h, .serve call, []⟩ c) := by
  obtain ⟨store, delay, memory, ho⟩ := hm
  induction ho with
  | refl => exact ⟨_, .start store delay memory, .inl ⟨.done, rfl⟩⟩
  | step _ ih =>
    obtain ⟨h, ha, ⟨reply, rfl⟩ | ⟨call, hr⟩⟩ := ih
    · exact ⟨h, ha, .inl ⟨reply, rfl⟩⟩
    · exact ⟨h, ha, .inr ⟨call, hr.trans (.head (.refl ls _))⟩⟩
  | @call h' reply _ call ih =>
    obtain ⟨h, ha, ⟨reply', heq⟩ | ⟨call', hr⟩⟩ := ih
    · cases heq
      exact ⟨h', ha, .inr ⟨call, .refl ls _⟩⟩
    · obtain ⟨depth, hs⟩ := exists_serve_iff_reaches.mpr hr
      exact ⟨h', .step ha hs, .inr ⟨call, .refl ls _⟩⟩

/-- The hubs that served calls lead to are those at which a run of steps comes to rest. -/
theorem arises_iff_isMoment : Arises ls h ↔ ∃ reply, IsMoment ls ⟨h, .reply reply, []⟩ := by
  refine ⟨Arises.exists_isMoment, fun ⟨reply, hm⟩ => ?_⟩
  obtain ⟨h', ha, ⟨reply', heq⟩ | ⟨call, hr⟩⟩ := exists_arises_of_isMoment hm
  · cases heq
    exact ha
  · obtain ⟨depth, hs⟩ := exists_serve_iff_reaches.mpr hr
    exact .step ha hs

theorem Arises.isMoment (ha : Arises ls h) {call : Call} (hr : Reaches ls ⟨h, .serve call, []⟩ c) :
    IsMoment ls c := by
  obtain ⟨reply, hm⟩ := ha.exists_isMoment
  have hcall : Onward ls ⟨h, .reply reply, []⟩ ⟨h, .serve call, []⟩ := .call .refl call
  exact hm.onward (hcall.trans (.of_reaches hr))

end Hub

end Flowchart.Live
