import Flowchart.Proofs.Live.Failure
import Flowchart.Proofs.Live.Moment
import Flowchart.Proofs.Live.Operation

/-! Text and graph are in step when a write is due or the text is that of the graph. A call during which
the content of the graph changes leaves them in step, unless a change escapes: one that a listener makes
while the text is written, or one that an operation makes before it fails. -/
namespace Flowchart.Live

variable {Memory : Type}

namespace Hub

/-- A write is due, or the text is that of the graph. -/
def InStep (h : Hub Memory) : Prop :=
  h.coordinator.pending ≠ none ∨ h.coordinator.text = Diagram.write h.store.document

theorem InStep.congr {h h' : Hub Memory} (hi : h.InStep)
    (hpending : h'.coordinator.pending = h.coordinator.pending)
    (htext : h'.coordinator.text = h.coordinator.text)
    (hwrite : Diagram.write h'.store.document = Diagram.write h.store.document) : h'.InStep := by
  unfold InStep
  rw [hpending, htext, hwrite]
  exact hi

end Hub

namespace Config

/-- A change of the content is about to be told. -/
def Announces (c : Config Memory) : Prop :=
  ∃ change : Change, c.task = .announce change ∧ change.IsContent

/-- A change of the graph is not going to be in the text: it comes while the text is written, or it is
what a failing operation leaves behind. -/
inductive Escapes : Config Memory → Prop
  | unheard {h : Hub Memory} {change : Change} (hc : change.IsContent)
      (hp : h.coordinator.phase = .writingText)
      (ht : h.coordinator.text ≠ Diagram.write h.store.document) (stack : List (Frame Memory)) :
      Escapes ⟨h, .announce change, stack⟩
  | untold {h : Hub Memory} {op : StoreOp} {e : StoreError}
      (he : (op.run h.store).result = .error e) (hp : h.coordinator.pending = none)
      (ht : h.coordinator.text ≠ Diagram.write (op.run h.store).store.document)
      (stack : List (Frame Memory)) : Escapes ⟨h, .serve (.store op), stack⟩

variable {ls : Listeners Memory} {c c' m : Config Memory}

section Steps

theorem inStep_resume {h h' : Hub Memory} {frame : Frame Memory} {task task' : Task Memory}
    (hr : frame.resume ls h task = some (h', task')) (hi : h.InStep) : h'.InStep := by
  unfold Frame.resume at hr
  split at hr <;> cases hr <;> exact hi

theorem inStep_handBack (hi : c.hub.InStep) : (c.handBack ls).hub.InStep := by
  obtain ⟨h, task, stack⟩ := c
  unfold handBack
  cases stack with
  | nil => exact hi
  | cons frame stack =>
    dsimp only
    cases hresume : frame.resume ls h task with
    | none => exact hi
    | some next => exact inStep_resume hresume hi

theorem inStep_beginWrite (h : Hub Memory) (stack : List (Frame Memory)) :
    (beginWrite ls h stack).hub.InStep :=
  .inr rfl

/-- A change of the content that is taken outside a read or a write is written, at once or later, and
any other one leaves things as they are. -/
theorem Taken.inStep {h : Hub Memory} {change : Change} {stack : List (Frame Memory)}
    (ht : Taken ls h stack change c) (hnot : h.coordinator.phase ≠ .readingText)
    (hi : ¬change.IsContent ∨ h.coordinator.phase = .writingText → h.InStep) : c.hub.InStep := by
  cases ht with
  | reading hp => exact absurd hp hnot
  | writing hp => exact hi (.inr hp)
  | ignore _ hc => exact hi (.inl hc)
  | write _ => exact inStep_beginWrite _ _
  | schedule _ _ => exact .inl nofun

theorem kept_beginCall_store {h : Hub Memory} {op : StoreOp} {stack : List (Frame Memory)}
    (he : ¬Escapes ⟨h, .serve (.store op), stack⟩) (hi : h.InStep) :
    (beginCall ls h (.store op) stack).Announces ∨ (beginCall ls h (.store op) stack).hub.InStep := by
  have hsame : (∃ found, (op.run h.store).result = .ok found) →
      (∀ change ∈ (op.run h.store).change, change = .selection ∨ change = .position) →
      (beginCall ls h (.store op) stack).hub.InStep := fun hresult hchange =>
    hi.congr rfl rfl (Diagram.write_eq_of_unplaced (StoreOp.unplaced_run hresult hchange))
  cases hchange : (op.run h.store).change with
  | none =>
    right
    cases hresult : (op.run h.store).result with
    | ok found => exact hsame ⟨found, hresult⟩ (by simp [hchange])
    | error e =>
      by_contra hnot
      have hescaped : h.coordinator.pending = none ∧
          h.coordinator.text ≠ Diagram.write (op.run h.store).store.document := by
        simpa [Hub.InStep, beginCall] using hnot
      exact he (.untold hresult hescaped.1 hescaped.2 stack)
  | some change =>
    by_cases hc : change.IsContent
    · exact .inl ⟨change, by simp [beginCall, hchange], hc⟩
    · right
      have hok : (op.run h.store).result = .ok true := StoreOp.result_of_change (by simp [hchange])
      refine hsame ⟨true, hok⟩ fun other hother => ?_
      cases hchange.symm.trans hother
      unfold Change.IsContent at hc
      tauto

/-- Without an edit or a cancel, what is in step or about to be stays so, unless a change escapes. -/
theorem kept_step (hnot : c.hub.coordinator.phase ≠ .readingText) (hedit : ¬c.IsEdit)
    (hcancel : c.task ≠ .serve .cancel) (he : ¬c.Escapes) (hk : c.Announces ∨ c.hub.InStep) :
    (c.step ls).Announces ∨ (c.step ls).hub.InStep := by
  obtain ⟨h, task, stack⟩ := c
  -- Only where a change is about to be told need they not be in step before.
  by_cases ha : ∃ change : Change, task = .announce change
  · obtain ⟨change, rfl⟩ := ha
    refine .inr ((taken_beginAnnounce ls h change stack).inStep hnot fun hquiet => ?_)
    by_cases hc : change.IsContent
    · by_contra hi
      exact he (.unheard hc (hquiet.resolve_left (not_not_intro hc)) (not_or.mp hi).2 stack)
    · refine hk.resolve_left fun ⟨other, heq, hother⟩ => ?_
      cases heq
      exact hc hother
  have hi : h.InStep := hk.resolve_left fun ⟨change, heq, _⟩ => ha ⟨change, heq⟩
  cases task with
  | serve call =>
    cases call with
    | setText text =>
      have ht : text = h.coordinator.text := by
        by_contra ht
        exact hedit ⟨text, rfl, ht⟩
      right
      simpa [step, beginCall, ht] using hi
    | store op =>
      change (beginCall ls h (.store op) stack).Announces ∨ _
      exact kept_beginCall_store he hi
    | flush =>
      right
      change (beginCall ls h .flush stack).hub.InStep
      unfold beginCall
      dsimp only
      split_ifs
      · exact hi
      · exact inStep_beginWrite _ _
    | cancel => exact absurd rfl hcancel
    | advance ms => exact .inr hi
  | run script => cases script <;> exact .inr hi
  | tellText text listeners => cases listeners <;> exact .inr hi
  | announce change => exact absurd ⟨change, rfl⟩ ha
  | tellChange change listeners => cases listeners <;> exact .inr hi
  | fire due =>
    right
    cases due with
    | nil => exact hi
    | cons timer rest =>
      dsimp only [step]
      split_ifs
      · exact inStep_beginWrite _ _
      · exact hi
  | finish fault => exact .inr (inStep_handBack hi)
  | reply reply => exact .inr (inStep_handBack hi)

/-- A change that escapes is neither in the text nor due to be written, and nobody is going to tell it. -/
theorem lost_step (hs : c.IsSteady) (he : c.Escapes) :
    ¬((c.step ls).Announces ∨ (c.step ls).hub.InStep) := by
  rintro (⟨change, htask, -⟩ | hi)
  · cases he with
    | @unheard h change hc hp ht stack =>
      simp [step, beginAnnounce, hp] at htask
    | @untold h op e he hp ht stack =>
      have hnone : (op.run h.store).change = none := by
        by_contra hne
        rw [StoreOp.result_of_change hne] at he
        cases he
      simp [step, beginCall, hnone] at htask
  · cases he with
    | @unheard h change hc hp ht stack =>
      have hpending := (hs.syncing (.inr hp)).1
      have hstep : (step ls ⟨h, .announce change, stack⟩).hub = h := by
        simp [step, beginAnnounce, hp]
      rw [hstep] at hi
      exact hi.elim (absurd hpending) ht
    | @untold h op e he hp ht stack => exact hi.elim (absurd hp) ht

theorem Move.phase_ne_readingText (hm : Move c c') (hedit : ¬c.IsEdit)
    (hp : c.hub.coordinator.phase ≠ .readingText) : c'.hub.coordinator.phase ≠ .readingText := by
  cases hm with
  | keep _ hphase _ _ _ => rwa [hphase]
  | schedule _ _ hhub =>
    rw [hhub]
    exact nofun
  | cancel _ hhub =>
    rw [hhub, Hub.cancelPending_eq]
    dsimp only
    split_ifs
    · exact nofun
    · exact hp
  | refuse he _ _ _ _ => exact absurd he hedit
  | enter _ _ hfree _ _ =>
    rw [(hfree.resolve_left hedit).1]
    exact nofun
  | leave _ hphase _ _ =>
    rw [hphase]
    exact nofun

end Steps

section Runs

theorem Reaches.phase_ne_readingText (hedit : ∀ c', Reaches ls c c' → ¬c'.IsEdit)
    (hp : c.hub.coordinator.phase ≠ .readingText) (hr : Reaches ls c c') :
    c'.hub.coordinator.phase ≠ .readingText := by
  obtain ⟨n, rfl⟩ := hr
  induction n with
  | zero => exact hp
  | succ n ih =>
    rw [Function.iterate_succ_apply']
    exact (move_step _).phase_ne_readingText (hedit _ ⟨n, rfl⟩) ih

/-- What is in step or about to be stays so all through a run exactly if nothing escapes. -/
theorem kept_iff (hm : IsMoment ls m) (hp : m.hub.coordinator.phase ≠ .readingText)
    (hcalls : ∀ c, Reaches ls m c → ¬c.IsEdit ∧ c.task ≠ .serve .cancel)
    (hk : m.Announces ∨ m.hub.InStep) :
    (∀ c, Reaches ls m c → ¬c.Escapes) ↔ ∀ c, Reaches ls m c → c.Announces ∨ c.hub.InStep := by
  constructor
  · rintro hnone c ⟨n, rfl⟩
    induction n with
    | zero => exact hk
    | succ n ih =>
      have hr : Reaches ls m ((step ls)^[n] m) := ⟨n, rfl⟩
      rw [Function.iterate_succ_apply']
      exact kept_step (hr.phase_ne_readingText (fun c hc => (hcalls c hc).1) hp) (hcalls _ hr).1
        (hcalls _ hr).2 (hnone _ hr) ih
  · intro hkept c hr he
    -- What escapes at one moment is lost at the next one.
    exact lost_step (hm.onward (.of_reaches hr)).isSteady he
      (hkept _ (hr.trans (.head (.refl ls _))))

end Runs

end Config

namespace Hub

open Config (Reaches)

variable {ls : Listeners Memory} {h h' : Hub Memory} {m : Config Memory}

/-- Let a call be served, with no edit and no cancel in its run. Once a change of the content is announced
in it, the call leaves text and graph in step if no change escapes from then on. Nothing escapes exactly
if at each moment from then on they are in step or a change is being announced. -/
theorem Arises.inStep_of_announces (ha : Arises ls h) {depth : Nat} {call : Call} {reply : Reply}
    (hserve : serve ls depth h call = some (h', reply))
    (hcalls : ∀ c, Reaches ls ⟨h, .serve call, []⟩ c → ¬c.IsEdit ∧ c.task ≠ .serve .cancel)
    (hr : Reaches ls ⟨h, .serve call, []⟩ m) (hm : m.Announces) :
    ((∀ c, Reaches ls m c → ¬c.Escapes) → h'.InStep) ∧
    ((∀ c, Reaches ls m c → ¬c.Escapes) ↔
      ∀ c, Reaches ls m c → c.Announces ∨ c.hub.InStep) := by
  have hrest : h.coordinator.phase ≠ .readingText := by
    have hsteady := (ha.isMoment (.refl ls ⟨h, .serve call, []⟩)).isSteady
    exact fun hp => hsteady.not_isSyncing rfl (.inl hp)
  have hphase := hr.phase_ne_readingText (fun c hc => (hcalls c hc).1) hrest
  have hkept := Config.kept_iff (ha.isMoment hr) hphase (fun c hc => hcalls c (hr.trans hc)) (.inl hm)
  refine ⟨fun hnone => ?_, hkept⟩
  obtain ⟨change, htask, -⟩ := hm
  have hend := exists_serve_iff_reaches.mp ⟨depth, hserve⟩
  have hlater : Reaches ls m ⟨h', .reply reply, []⟩ := by
    -- Nothing is announced once the call is over.
    refine (hr.total hend).resolve_right fun hafter => ?_
    have ho : Config.IsOver (⟨h', .reply reply, []⟩ : Config Memory) := ⟨rfl, reply, rfl⟩
    rw [hafter.eq_of_step_eq ho.step_eq] at htask
    cases htask
  exact (hkept.mp hnone _ hlater).resolve_left fun ⟨other, heq, _⟩ => nomatch heq

end Hub

/-- Whatever is written, the listener gives a node another label. -/
def relabelingListeners : Listeners Unit where
  onChange := []
  onText := [fun _ _ => .call (.store (.updateNode "A" { label := some "New" })) fun _ => .done]

def turning : Config Unit :=
  ⟨.start Store.loopDocument (some 300) (), .serve (.store (.setDirection (.ok .leftRight))), []⟩

def Task.isPlain : Task Memory → Bool
  | .serve (.setText _) => false
  | .serve .cancel => false
  | _ => true

theorem not_isEdit_of_isPlain {c : Config Memory} (hp : c.task.isPlain = true) :
    ¬c.IsEdit ∧ c.task ≠ .serve .cancel := by
  constructor
  · rintro ⟨text, htask, -⟩
    rw [htask] at hp
    cases hp
  · intro htask
    rw [htask] at hp
    cases hp

/-- The direction is written with the old label, and the new one is neither written nor due. -/
theorem exists_escapes_turning : ∃ depth h reply,
    Hub.serve relabelingListeners depth turning.hub (.store (.setDirection (.ok .leftRight))) =
      some (h, reply) ∧
    h.coordinator.pending = none ∧ h.coordinator.text ≠ Diagram.write h.store.document ∧
    ∃ c, Config.Reaches relabelingListeners turning c ∧ c.Escapes := by
  have hover : ((Config.step relabelingListeners)^[16] turning).IsOver := ⟨rfl, _, rfl⟩
  have hplain : ∀ k ≤ 16, ((Config.step relabelingListeners)^[k] turning).task.isPlain = true := by
    decide +kernel
  have hcalls : ∀ c, Config.Reaches relabelingListeners turning c →
      ¬c.IsEdit ∧ c.task ≠ .serve .cancel := by
    intro c hr
    obtain ⟨k, hk, rfl⟩ := hr.exists_le hover
    exact not_isEdit_of_isPlain (hplain k hk)
  have hpending : ((Config.step relabelingListeners)^[16] turning).hub.coordinator.pending =
      none := by decide +kernel
  have htext : ((Config.step relabelingListeners)^[16] turning).hub.coordinator.text ≠
      Diagram.write ((Config.step relabelingListeners)^[16] turning).hub.store.document := by
    decide +kernel
  have hfirst : Config.Reaches relabelingListeners turning
      ((Config.step relabelingListeners)^[1] turning) := ⟨1, rfl⟩
  have hlast : Config.Reaches relabelingListeners ((Config.step relabelingListeners)^[1] turning)
      ((Config.step relabelingListeners)^[16] turning) := ⟨15, rfl⟩
  have hannounces : ((Config.step relabelingListeners)^[1] turning).Announces :=
    ⟨.direction, rfl, nofun, nofun⟩
  generalize (Config.step relabelingListeners)^[16] turning = c at hover hpending htext hlast
  obtain ⟨h, task, stack⟩ := c
  obtain ⟨rfl, reply, rfl⟩ := hover
  obtain ⟨depth, hserve⟩ := Hub.exists_serve_iff_reaches.mpr (hfirst.trans hlast)
  have harises : Hub.Arises relabelingListeners turning.hub := .start _ (some 300) ()
  obtain ⟨-, hkept⟩ := Hub.Arises.inStep_of_announces harises hserve hcalls hfirst hannounces
  refine ⟨depth, h, reply, hserve, hpending, htext, ?_⟩
  by_contra hnone
  push Not at hnone
  rcases hkept.mp (fun c hr => hnone c (hfirst.trans hr)) _ hlast with ⟨change, htask, -⟩ | hi
  · cases htask
  · exact hi.elim (absurd hpending) htext

end Flowchart.Live
