import Flowchart.Proofs.Live.Consistency
import Flowchart.Proofs.Live.Moment

/-! When the coordinator waits. Between calls it is idle or waits, and it waits exactly if a timer is
pending, unless the timer was set while a text was still read or written, which takes an edit within. -/
namespace Flowchart.Live

variable {Memory : Type}

namespace Config

/-- The pending timer was set at an earlier moment. The coordinator waits until a read or a write ends
that was under way then. -/
structure IsSetAt (ls : Listeners Memory) (m c : Config Memory) : Prop where
  moment : IsMoment ls m
  scheduling : m.IsScheduling
  onward : Onward ls m c
  pending : c.hub.coordinator.pending = some m.hub.timers.nextId
  phase : c.hub.coordinator.phase = .waiting ∧ c.syncs = m.syncs ∨
    c.hub.coordinator.phase = .idle ∧ c.syncs < m.syncs

variable {ls : Listeners Memory} {m c c' : Config Memory}

theorem IsSetAt.keep (hs : IsSetAt ls m c) (ho : Onward ls c c') (hsyncs : c'.syncs = c.syncs)
    (hphase : c'.hub.coordinator.phase = c.hub.coordinator.phase)
    (hpending : c'.hub.coordinator.pending = c.hub.coordinator.pending) : IsSetAt ls m c' where
  moment := hs.moment
  scheduling := hs.scheduling
  onward := hs.onward.trans ho
  pending := hpending.trans hs.pending
  phase := by
    rw [hphase, hsyncs]
    exact hs.phase

theorem IsSetAt.leave (hs : IsSetAt ls m c) (ho : Onward ls c c') (hsyncs : c.syncs = c'.syncs + 1)
    (hphase : c'.hub.coordinator.phase = .idle)
    (hpending : c'.hub.coordinator.pending = c.hub.coordinator.pending) : IsSetAt ls m c' where
  moment := hs.moment
  scheduling := hs.scheduling
  onward := hs.onward.trans ho
  pending := hpending.trans hs.pending
  phase := by
    refine .inr ⟨hphase, ?_⟩
    rcases hs.phase with ⟨-, heq⟩ | ⟨-, hlt⟩ <;> omega

theorem exists_isSetAt_of_move (hm : IsMoment ls c) (hmove : Move c c') (ho : Onward ls c c')
    (hset : c.hub.coordinator.pending ≠ none → ∃ m, IsSetAt ls m c)
    (hp : c'.hub.coordinator.pending ≠ none) : ∃ m, IsSetAt ls m c' := by
  cases hmove with
  | keep hsyncs hphase hpending _ _ =>
    obtain ⟨m, hs⟩ := hset (hpending ▸ hp)
    exact ⟨m, hs.keep ho hsyncs hphase hpending⟩
  | schedule hscheduling hsyncs hhub =>
    refine ⟨c, hm, hscheduling, ho, ?_, .inl ⟨by rw [hhub]; rfl, hsyncs⟩⟩
    rw [hhub, ← Hub.nextId_cancelPending]
    rfl
  | cancel _ hhub =>
    rw [hhub, Hub.pending_cancelPending] at hp
    exact absurd rfl hp
  | refuse _ _ _ hpending _ => exact absurd hpending hp
  | enter _ _ _ hpending _ => exact absurd hpending hp
  | leave hsyncs hphase hpending _ =>
    obtain ⟨m, hs⟩ := hset (hpending ▸ hp)
    exact ⟨m, hs.leave ho hsyncs hphase hpending⟩

theorem IsMoment.exists_isSetAt (hm : IsMoment ls c) (hp : c.hub.coordinator.pending ≠ none) :
    ∃ m, IsSetAt ls m c := by
  obtain ⟨store, delay, memory, ho⟩ := hm
  induction ho with
  | refl => exact absurd rfl hp
  | @step c' ho ih =>
    exact exists_isSetAt_of_move ⟨store, delay, memory, ho⟩ (move_step c') (.step .refl) ih hp
  | @call h reply ho call ih =>
    have hstay : Onward ls ⟨h, .reply reply, []⟩ ⟨h, .serve call, []⟩ := .call .refl call
    exact exists_isSetAt_of_move ⟨store, delay, memory, ho⟩ (.stay rfl rfl) hstay ih hp

/-- Unless a text is edited while another one is read or written, reads and writes do not nest, and the
phase tells of them. -/
theorem IsMoment.syncs_le_one (hedit : ∀ c, IsMoment ls c → c.IsEdit → c.syncs = 0)
    (hm : IsMoment ls c) : c.syncs ≤ 1 ∧ (0 < c.syncs → c.hub.IsSyncing) := by
  have hrest : ∀ {c : Config Memory}, c.syncs = 0 →
      c.syncs ≤ 1 ∧ (0 < c.syncs → c.hub.IsSyncing) := fun hzero =>
    ⟨hzero ▸ Nat.zero_le 1, fun hlt => absurd hzero hlt.ne'⟩
  obtain ⟨store, delay, memory, ho⟩ := hm
  induction ho with
  | refl => exact hrest rfl
  | call _ _ ih => exact ih
  | @step c ho ih =>
    obtain ⟨hone, hsyncing⟩ := ih
    have hm : IsMoment ls c := ⟨store, delay, memory, ho⟩
    have hzero : ¬c.hub.IsSyncing → c.syncs = 0 := fun hnot =>
      Nat.eq_zero_of_not_pos (mt hsyncing hnot)
    have hmove : Move c (c.step ls) := move_step c
    cases hmove with
    | keep hsyncs hphase _ _ _ =>
      unfold Hub.IsSyncing
      rw [hsyncs, hphase]
      exact ⟨hone, hsyncing⟩
    | schedule hs hsyncs _ => exact hrest (hsyncs.trans (hzero hs.1))
    | cancel hsyncs hhub =>
      rw [hsyncs, hhub]
      refine ⟨hone, fun hlt => ?_⟩
      rw [Hub.cancelPending_eq]
      rcases hsyncing hlt with hp | hp <;> simp [Hub.IsSyncing, hp]
    | refuse he hsyncs _ _ _ => exact hrest (hsyncs.trans (hedit c hm he))
    | enter hsyncs hs hfree _ _ =>
      have hnone : c.syncs = 0 := by
        rcases hfree with he | ⟨-, htimer⟩
        · exact hedit c hm he
        -- Within a read or a write no timer is left that a write could begin from.
        · refine hzero fun hs => ?_
          have hpending := (hm.isSteady.syncing hs).1
          rcases htimer hs with hp | hl
          · exact hp hpending
          · exact hl (hm.isSteady.live_eq_nil hpending)
      exact ⟨by rw [hsyncs, hnone], fun _ => hs⟩
    | leave hsyncs _ _ _ => exact hrest (by omega)

end Config

namespace Hub

open Config (IsMoment Onward)

variable {ls : Listeners Memory} {h : Hub Memory}

/-- Between calls the coordinator is idle or waits, and it is idle if nothing is pending. A pending timer
is waited for exactly if no read or write was under way when it was set; so it is where no text is edited
while another one is read or written. -/
theorem Arises.waiting_iff (ha : Arises ls h) :
    (h.coordinator.phase = .idle ∨ h.coordinator.phase = .waiting) ∧
    (h.coordinator.pending = none → h.coordinator.phase = .idle) ∧
    (∀ id, h.coordinator.pending = some id → ∃ m reply, IsMoment ls m ∧ m.IsScheduling ∧
      m.hub.timers.nextId = id ∧ Onward ls m ⟨h, .reply reply, []⟩ ∧
      (h.coordinator.phase = .waiting ↔ m.syncs = 0)) ∧
    ((∀ c, IsMoment ls c → c.IsEdit → c.syncs = 0) →
      (h.coordinator.phase = .waiting ↔ h.coordinator.pending ≠ none)) := by
  obtain ⟨reply, hm⟩ := ha.exists_isMoment
  have hsteady := hm.isSteady
  have hphase : h.coordinator.phase = .idle ∨ h.coordinator.phase = .waiting := by
    have hnot : ¬h.IsSyncing := hsteady.not_isSyncing rfl
    cases hp : h.coordinator.phase with
    | idle => exact .inl rfl
    | waiting => exact .inr rfl
    | readingText => exact absurd (.inl hp) hnot
    | writingText => exact absurd (.inr hp) hnot
  have hset : h.coordinator.pending ≠ none → ∃ m, Config.IsSetAt ls m ⟨h, .reply reply, []⟩ ∧
      (h.coordinator.phase = .waiting ↔ m.syncs = 0) := by
    intro hp
    obtain ⟨m, hs⟩ := hm.exists_isSetAt hp
    refine ⟨m, hs, ?_⟩
    rcases hs.phase with ⟨hwaiting, heq⟩ | ⟨hidle, hlt⟩
    · exact iff_of_true hwaiting heq.symm
    · have hne : h.coordinator.phase ≠ .waiting := by
        change h.coordinator.phase = .idle at hidle
        simp [hidle]
      exact iff_of_false hne (Nat.ne_zero_of_lt hlt)
  refine ⟨hphase, fun hp => ?_, fun id hp => ?_, fun hedit => ⟨hsteady.waiting, fun hp => ?_⟩⟩
  · exact hphase.resolve_right fun hwaiting => hsteady.waiting hwaiting hp
  · obtain ⟨m, hs, hiff⟩ := hset (by simp [hp])
    have hid : some id = some m.hub.timers.nextId := hp.symm.trans hs.pending
    exact ⟨m, reply, hs.moment, hs.scheduling, (Option.some.inj hid).symm, hs.onward, hiff⟩
  · obtain ⟨m, hs, hiff⟩ := hset hp
    have hsingle := hs.moment.syncs_le_one hedit
    exact hiff.mpr (Nat.eq_zero_of_not_pos (mt hsingle.2 hs.scheduling.1))

end Hub

/-- Whatever is written, the first listener edits it, and then the second one changes a label. -/
def correctingListeners : Listeners Unit where
  onChange := []
  onText := [fun _ _ => .call (.setText "graph LR\nA --> B") fun _ => .done,
    fun _ _ => .call (.store (.updateNode "A" { label := some "Start" })) fun _ => .done]

/-- The graph of a loop is turned, which is written at once. -/
def corrected? : Option (Hub Unit) :=
  (Hub.serve correctingListeners 2 (.start Store.loopDocument (some 300) ())
    (.store (.setDirection (.ok .leftRight)))).map (·.1)

/-- The coordinator is idle although a timer is pending, which was set during the write. -/
theorem exists_idle_corrected : ∃ h, corrected? = some h ∧ h.coordinator.phase = .idle ∧
    h.coordinator.pending = some 0 ∧ ∃ m, Config.IsMoment correctingListeners m ∧ m.IsScheduling ∧
      m.hub.timers.nextId = 0 ∧ m.syncs ≠ 0 := by
  have hstate : corrected?.map (fun h => (h.coordinator.phase, h.coordinator.pending)) =
      some (.idle, some 0) := by decide +kernel
  obtain ⟨h, hserved, hcoordinator⟩ := Option.map_eq_some_iff.mp hstate
  simp only [Prod.mk.injEq] at hcoordinator
  obtain ⟨hphase, hpending⟩ := hcoordinator
  have harises : Hub.Arises correctingListeners h := by
    obtain ⟨⟨turned, reply⟩, hturned, rfl⟩ := Option.map_eq_some_iff.mp hserved
    exact .step (.start _ (some 300) ()) hturned
  obtain ⟨-, -, hset, -⟩ := Hub.Arises.waiting_iff harises
  obtain ⟨m, -, hm, hscheduling, hid, -, hiff⟩ := hset 0 hpending
  refine ⟨h, hserved, hphase, hpending, m, hm, hscheduling, hid, fun hzero => ?_⟩
  have hwaiting := hiff.mpr hzero
  rw [hphase] at hwaiting
  cases hwaiting

end Flowchart.Live
