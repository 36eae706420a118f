import Flowchart.Proofs.Live.Moment

/-! At any moment at most one timer is live, the pending one, and a timer that gave way to a later change or
call never writes the text again. -/
namespace Flowchart.Live

variable {Memory : Type}

namespace Config

/-- What comes next takes the place of the write that a pending timer stands for. -/
inductive Supersedes : Config Memory → Prop
  | announce (h : Hub Memory) {change : Change} (hc : change.IsContent)
      (stack : List (Frame Memory)) : Supersedes ⟨h, .announce change, stack⟩
  | setText {h : Hub Memory} {text : String} (ht : text ≠ h.coordinator.text)
      (stack : List (Frame Memory)) : Supersedes ⟨h, .serve (.setText text), stack⟩
  | flush (h : Hub Memory) (stack : List (Frame Memory)) : Supersedes ⟨h, .serve .flush, stack⟩
  | cancel (h : Hub Memory) (stack : List (Frame Memory)) : Supersedes ⟨h, .serve .cancel, stack⟩

/-- The timer goes off, and the text is written because of it. -/
def Fires (c : Config Memory) (id : Nat) : Prop :=
  ∃ timer rest, c.task = .fire (timer :: rest) ∧ timer.id = id ∧ c.hub.timers.isLive id

variable {ls : Listeners Memory} {c : Config Memory}

/-- A timer that was set earlier never goes off. -/
theorem Onward.not_fires {c' : Config Memory} {n id : Nat} (ho : Onward ls c c')
    (hs : c.hub.SetSince n) (hid : id < n) : ¬c'.Fires id := by
  rintro ⟨timer, rest, -, -, hgoes⟩
  obtain ⟨live, hmem, heq⟩ := List.any_eq_true.mp hgoes
  have hle := (ho.setSince hs).2 live hmem
  rw [beq_iff_eq.mp heq] at hle
  omega

theorem setSince_of_live_eq_nil {h : Hub Memory} {n : Nat} (hn : n ≤ h.timers.nextId)
    (hl : h.timers.live = []) : h.SetSince n :=
  ⟨hn, by simp [hl]⟩

theorem Taken.setSince {h : Hub Memory} {change : Change} {stack : List (Frame Memory)} {n : Nat}
    (ht : Taken ls h stack change c) (hc : change.IsContent) (hcancelled : h.cancelPending.SetSince n)
    (hsyncing : h.IsSyncing → h.SetSince n) : c.hub.SetSince n := by
  cases ht with
  | reading hp => exact hsyncing (.inl hp)
  | writing hp => exact hsyncing (.inr hp)
  | ignore _ hnot => exact absurd hc hnot
  | write _ => exact hcancelled
  | schedule _ _ => exact hcancelled.schedule

/-- What supersedes a timer takes every live one away, and sets a new one at most. -/
theorem Supersedes.setSince (hs : c.Supersedes) (hsteady : c.IsSteady) :
    (c.step ls).hub.SetSince c.hub.timers.nextId := by
  have hcancelled : c.hub.cancelPending.SetSince c.hub.timers.nextId :=
    setSince_of_live_eq_nil (Hub.nextId_cancelPending c.hub).ge (Hub.live_cancelPending hsteady.held)
  have hnone : c.hub.coordinator.pending = none → c.hub.SetSince c.hub.timers.nextId :=
    fun hp => setSince_of_live_eq_nil (Nat.le_refl _) (hsteady.live_eq_nil hp)
  cases hs with
  | @announce h change hc stack =>
    exact (taken_beginAnnounce ls h change stack).setSince hc hcancelled fun hsyncing =>
      hnone (hsteady.syncing hsyncing).1
  | @setText h text ht stack =>
    change (beginCall ls h (.setText text) stack).hub.SetSince _
    unfold beginCall
    dsimp only
    rw [if_neg ht]
    unfold beginRead
    cases Diagram.readArranged text with
    | error e => exact hcancelled
    | ok outcome => cases outcome <;> exact hcancelled
  | flush h stack =>
    change (beginCall ls h .flush stack).hub.SetSince _
    unfold beginCall
    dsimp only
    split_ifs with hp
    · exact hnone (Option.isNone_iff_eq_none.mp hp)
    · exact hcancelled
  | cancel h stack => exact hcancelled

/-- At every moment of the run of a call at most one timer is live, the one the coordinator holds, and
none if it holds none. Once a change of the content, an edit, a flush or a cancel comes, the timers that
are live then never go off in any later run. -/
theorem liveTimer_of_arises {h : Hub Memory} (ha : h.Arises ls) {call : Call}
    (hr : Reaches ls ⟨h, .serve call, []⟩ c) :
    (∀ timer ∈ c.hub.timers.live, c.hub.coordinator.pending = some timer.id) ∧
      c.hub.timers.live.length ≤ 1 ∧
      (c.hub.coordinator.pending = none → c.hub.timers.live = []) ∧
      (c.Supersedes → ∀ timer ∈ c.hub.timers.live, ∀ c', Onward ls (c.step ls) c' →
        ¬c'.Fires timer.id) := by
  have hsteady := (ha.isMoment hr).isSteady
  refine ⟨hsteady.held, hsteady.single, hsteady.live_eq_nil, ?_⟩
  intro hs timer hlive c' ho
  exact ho.not_fires (hs.setSince hsteady) (hsteady.old timer.id (hsteady.held timer hlive))

end Config

/-- At the first change it is told of, the listener gives the node another label, and then it raises. -/
def startledListeners : Listeners Nat where
  onChange := [fun h _ =>
    if h.memory = 0 then
      .remember (· + 1) (.call (.store (.updateNode "A" { label := some "B" })) fun _ =>
        .raise .listener)
    else .done]
  onText := []

/-- A node is added to nothing. -/
def addingNode : Config Nat :=
  ⟨.start .empty (some 300) 0, .serve (.store (.addNode "A" "A" (.ok .rectangle) none none)), []⟩

/-- While the listener changes the label, the timer of the new node is live; it never goes off. -/
theorem not_fires_startled : ∃ c, Config.Reaches startledListeners addingNode c ∧
    c.Supersedes ∧ ⟨0, some 300⟩ ∈ c.hub.timers.live ∧ c.stack.length = 4 ∧
      ∀ c', Config.Onward startledListeners (c.step startledListeners) c' → ¬c'.Fires 0 := by
  have harises : Hub.Arises startledListeners addingNode.hub := .start .empty (some 300) 0
  have hlive : ((Config.step startledListeners)^[6] addingNode).hub.timers.live =
      [⟨0, some 300⟩] := by decide +kernel
  have hmem : ⟨0, some 300⟩ ∈ ((Config.step startledListeners)^[6] addingNode).hub.timers.live := by
    rw [hlive]
    exact List.mem_singleton_self _
  have hnodes : Change.IsContent .nodes := ⟨nofun, nofun⟩
  have hs : ((Config.step startledListeners)^[6] addingNode).Supersedes := .announce _ hnodes _
  have hr : Config.Reaches startledListeners addingNode
      ((Config.step startledListeners)^[6] addingNode) := ⟨6, rfl⟩
  obtain ⟨-, -, -, hnever⟩ := Config.liveTimer_of_arises harises hr
  exact ⟨_, hr, hs, hmem, rfl, hnever hs ⟨0, some 300⟩ hmem⟩

end Flowchart.Live
