import Flowchart.Proofs.Live.Failure
import Flowchart.Proofs.Live.Operation
import Flowchart.Proofs.Live.Pending

/-! Text and graph agree after every run of calls in which nothing pending is dropped, as long as
the current text can be read or is refused; a text whose reading is broken off leaves them apart. -/
namespace Flowchart.Live

open Diagram (ReadError Outcome readArranged)

def refusal? : Outcome → Option ReadError
  | .ok _ => none
  | .error e => some e

variable {Memory : Type}

def Call.edits (h : Hub Memory) : Call → Bool
  | .setText text => text != h.coordinator.text
  | _ => false

/-- The calls of the runs: operations return normally and only bring in flow diagrams, and no
pending write is dropped. -/
def Call.IsAllowed (h : Hub Memory) : Call → Prop
  | .store op => (∃ found, (op.run h.store).result = .ok found) ∧
      ∀ d, op = .replaceAll d → d.kind.isFlow = true
  | .cancel => False
  | _ => True

theorem Call.isAllowed_setText (h : Hub Memory) (text : String) :
    (Call.setText text).IsAllowed h := trivial

namespace Hub

/-- No position breaks the reading of the current text off. -/
def IsReadable (h : Hub Memory) : Prop :=
  ¬Diagram.BreaksOff h.coordinator.text

/-- The text is written from the graph, or it is read as the graph, but for places. -/
def TextIsGraph (h : Hub Memory) : Prop :=
  h.coordinator.text = Diagram.write h.store.document ∨
    ∃ reading, readArranged h.coordinator.text = .ok (.ok reading) ∧
      h.store.document.unplaced = reading.document.unplaced

/-- There is no error exactly if the current text can be read, an error is the one it is refused
with, and text and graph say the same if there is no error and nothing is pending. -/
structure Agrees (h : Hub Memory) : Prop where
  read : h.coordinator.error = none ↔
    ∃ reading, readArranged h.coordinator.text = .ok (.ok reading)
  refused : ∀ e, h.coordinator.error = some e → readArranged h.coordinator.text = .ok (.error e)
  graph : h.coordinator.pending = none → h.coordinator.error = none → h.TextIsGraph

/-- The hubs that calls lead to. The mark says whether a text was taken in or written yet. -/
inductive IsReached (ls : Listeners Memory) : Bool → Hub Memory → Prop
  | start {document : Document} (hflow : document.kind.isFlow = true) (delay : Delay)
      (memory : Memory) : IsReached ls false (.start document delay memory)
  | step {begun : Bool} {h h' : Hub Memory} {call : Call} {depth : Nat} {reply : Reply}
      (hr : IsReached ls begun h) (hc : call.IsAllowed h)
      (hs : serve ls depth h call = some (h', reply)) :
      IsReached ls
        (begun || call.edits h || decide (h.coordinator.writes < h'.coordinator.writes)) h'

/-- What holds of a hub whatever has become of its graph: at most the pending timer is live, the
text is empty until something is taken in or written, and from then on the error is that of the
text. -/
structure IsSound (begun : Bool) (h : Hub Memory) : Prop where
  flow : h.store.document.kind.isFlow = true
  timers : ∀ timer ∈ h.timers.live, h.coordinator.pending = some timer.id
  text : begun = false → h.coordinator.text = ""
  error : begun = true → ∀ outcome, readArranged h.coordinator.text = .ok outcome →
    h.coordinator.error = refusal? outcome

/-- What holds of a hub between calls. -/
structure IsSettled (begun : Bool) (h : Hub Memory) : Prop extends IsSound begun h where
  phase : h.coordinator.phase = .idle ∨ h.coordinator.phase = .waiting
  graph : begun = true → h.IsReadable → h.coordinator.pending = none →
    h.coordinator.error = none → h.TextIsGraph

variable {h : Hub Memory} {begun : Bool}

section Pending

theorem IsSound.cancelPending (hs : h.IsSound begun) : h.cancelPending.IsSound begun := by
  have hlive := live_cancelPending hs.timers
  constructor
  · rw [cancelPending_eq]
    exact hs.flow
  · simp [hlive]
  · rw [cancelPending_eq]
    exact hs.text
  · rw [cancelPending_eq]
    exact hs.error

theorem IsSound.schedule (hs : h.IsSound begun) : h.schedule.IsSettled begun := by
  have hcancelled := hs.cancelPending
  constructor
  · exact ⟨hcancelled.flow, pending_schedule hs.timers, hcancelled.text, hcancelled.error⟩
  · exact .inr rfl
  · intro _ _ hp
    cases hp

theorem IsSound.written (hs : h.IsSound begun) (hl : h.timers.live = []) (memory : Memory) :
    (h.written memory).IsSettled true := by
  have hnone : ∀ outcome, readArranged (Diagram.write h.store.document) = .ok outcome →
      refusal? outcome = none := by
    intro outcome hread
    obtain ⟨reading, rfl⟩ := Diagram.exists_reading_of_write hs.flow hread
    rfl
  constructor
  · refine ⟨hs.flow, ?_, by simp, ?_⟩
    · change ∀ timer ∈ h.timers.live, _
      simp [hl]
    · intro _ outcome hread
      change readArranged (Diagram.write h.store.document) = .ok outcome at hread
      change (if Diagram.write h.store.document = h.coordinator.text then h.coordinator.error
        else none) = _
      rw [hnone outcome hread]
      split_ifs with htext
      · have hbegun : begun = true := by
          by_contra hb
          rw [Bool.not_eq_true] at hb
          rw [hs.text hb] at htext
          exact Diagram.write_ne_empty _ htext
        rw [hs.error hbegun outcome (htext ▸ hread), hnone outcome hread]
      · rfl
  · exact .inl rfl
  · intro _ _ _ _
    exact .inl rfl

end Pending

section Calls

variable (serve : Service Memory) {ls : Listeners Memory} (hq : ls.AreQuiet)

theorem IsSound.withStore (hs : h.IsSound begun) {s : Store}
    (hflow : s.document.kind.isFlow = true) : IsSound begun { h with store := s } :=
  ⟨hflow, hs.timers, hs.text, hs.error⟩

theorem IsSettled.withMemory (hs : h.IsSettled begun) (memory : Memory) :
    IsSettled begun { h with memory := memory } :=
  ⟨⟨hs.flow, hs.timers, hs.text, hs.error⟩, hs.phase, hs.graph⟩

/-- A graph that differs in places only says the same as the text. -/
theorem IsSettled.withStore (hs : h.IsSettled begun) {s : Store}
    (hflow : s.document.kind.isFlow = true)
    (hsame : s.document.unplaced = h.store.document.unplaced) :
    IsSettled begun { h with store := s } := by
  refine ⟨hs.toIsSound.withStore hflow, hs.phase, ?_⟩
  intro hb hread hp he
  rcases hs.graph hb hread hp he with hwritten | ⟨reading, hr, hdocument⟩
  · left
    rw [Diagram.write_eq_of_unplaced hsame]
    exact hwritten
  · right
    exact ⟨reading, hr, hsame.trans hdocument⟩

theorem isSettled_start {document : Document} (hflow : document.kind.isFlow = true) (delay : Delay)
    (memory : Memory) : (Hub.start document delay memory).IsSettled false := by
  have hdocument := Store.document_ofDocument document
  constructor
  · refine ⟨?_, by simp [start, Timers.start], fun _ => rfl, by simp⟩
    change (Store.ofDocument document).document.kind.isFlow = true
    rw [hdocument]
    exact hflow
  · exact .inl rfl
  · simp

include hq

theorem IsSettled.operate (hs : h.IsSettled begun) {op : StoreOp}
    (hresult : ∃ found, (op.run h.store).result = .ok found)
    (hop : ∀ d, op = .replaceAll d → d.kind.isFlow = true) :
    ∃ h' result, operate serve ls h op = some (h', result) ∧
      h'.IsSettled (begun || decide (h.coordinator.writes < h'.coordinator.writes)) := by
  have hflow := Store.isFlow_run hs.flow hop
  have hsame := StoreOp.unplaced_run hresult
  have hsound := hs.toIsSound.withStore hflow
  unfold Hub.operate
  dsimp only
  generalize (op.run h.store).store = s at *
  cases hchange : (op.run h.store).change with
  | none =>
    rw [hchange] at hsame
    refine ⟨_, _, rfl, ?_⟩
    simpa using hs.withStore hflow (hsame (by simp))
  | some change =>
    rw [hchange] at hsame
    obtain ⟨h', memory, hannounce, htakes⟩ :=
      announce_quiet serve hq (h := { h with store := s }) hs.phase change
    refine ⟨{ h' with memory := memory }, (op.run h.store).result, by rw [hannounce]; rfl, ?_⟩
    cases htakes with
    | ignore hc =>
      have hplaced := hs.withStore hflow (hsame fun c h => by cases h; exact hc)
      simpa using hplaced.withMemory memory
    | write remembered =>
      have hwritten := hsound.cancelPending.written (live_cancelPending hsound.timers) remembered
      have hwrites : h.coordinator.writes < (Hub.written (Hub.cancelPending { h with store := s })
          remembered).coordinator.writes := by
        unfold written
        rw [cancelPending_eq]
        exact Nat.lt_succ_self _
      simpa [hwrites] using hwritten.withMemory memory
    | schedule _ =>
      have hwrites : (Hub.schedule { h with store := s }).coordinator.writes =
          h.coordinator.writes := by
        unfold schedule
        rw [cancelPending_eq]
      simpa [hwrites] using hsound.schedule.withMemory memory

/-- A text that differs from the current one is taken in, refused, or its reading is broken off. -/
theorem IsSettled.readText (hs : h.IsSettled begun) (text : String) :
    ∃ h' reply, readText serve ls h text = some (h', reply) ∧ h'.IsSettled true := by
  have horderly : h.IsOrderly := ⟨hs.timers, hs.phase⟩
  obtain ⟨h', reply, hread, htaken, hreflects, hbroken⟩ := horderly.readText serve hq text
  refine ⟨h', reply, hread, ?_⟩
  have hsettled : h'.store.document.kind.isFlow = true →
      (∀ outcome, readArranged text = .ok outcome → h'.coordinator.error = refusal? outcome) →
      (h'.IsReadable → h'.coordinator.error = none → h'.TextIsGraph) → h'.IsSettled true := by
    intro hflow herror hgraph
    rw [← htaken.text] at herror
    exact ⟨⟨hflow, by simp [htaken.live], by simp, fun _ => herror⟩, .inl htaken.phase,
      fun _ hreadable _ => hgraph hreadable⟩
  cases houtcome : readArranged text with
  | error e =>
    have hbreaks := Diagram.breaksOff_iff.mpr ⟨e, houtcome⟩
    refine hsettled ?_ (by simp [houtcome]) fun hreadable => ?_
    · rw [(hbroken hbreaks).1]
      exact hs.flow
    · exact absurd hbreaks (htaken.text ▸ hreadable)
  | ok outcome =>
    have hsame := hreflects.mpr (Diagram.exists_outcome_iff.mp ⟨outcome, houtcome⟩)
    cases outcome with
    | error e =>
      obtain ⟨hstore, refused, hrefused, herror⟩ := hsame.refused (by simp [houtcome])
      refine hsettled (hstore ▸ hs.flow) ?_ fun _ hnone => ?_
      · intro outcome hother
        rw [hrefused] at hother
        cases hother
        exact herror
      · rw [herror] at hnone
        cases hnone
    | ok reading =>
      obtain ⟨hdocument, -, -, -, herror⟩ := hsame.read reading houtcome
      refine hsettled ?_ ?_ fun _ _ => .inr ⟨reading, htaken.text ▸ houtcome, by rw [hdocument]⟩
      · rw [hdocument]
        exact (Diagram.isFlow_of_readArranged houtcome).1
      · intro outcome hother
        rw [houtcome] at hother
        cases hother
        exact herror

theorem IsSettled.setText (hs : h.IsSettled begun) (text : String) :
    ∃ h' reply, setText serve ls h text = some (h', reply) ∧
      h'.IsSettled (begun || text != h.coordinator.text ||
        decide (h.coordinator.writes < h'.coordinator.writes)) := by
  unfold Hub.setText
  by_cases ht : text = h.coordinator.text
  · rw [if_pos ht]
    refine ⟨h, _, rfl, ?_⟩
    simpa [ht] using hs
  · rw [if_neg ht]
    obtain ⟨h', reply, hread, hsettled⟩ := hs.readText serve hq text
    have hedits : (text != h.coordinator.text) = true := by simpa using ht
    refine ⟨h', reply, hread, ?_⟩
    rw [hedits]
    simpa using hsettled

theorem IsSettled.flush (hs : h.IsSettled begun) :
    ∃ h' reply, flush serve ls h = some (h', reply) ∧
      h'.IsSettled (begun || decide (h.coordinator.writes < h'.coordinator.writes)) := by
  unfold Hub.flush
  by_cases hp : h.coordinator.pending.isNone
  · rw [if_pos hp]
    refine ⟨h, _, rfl, ?_⟩
    simpa using hs
  · rw [if_neg hp]
    obtain ⟨memory, fault, hwrite⟩ := writeText_quiet serve hq h.cancelPending
    rw [hwrite]
    refine ⟨_, _, rfl, ?_⟩
    have hwrites : h.coordinator.writes < (h.cancelPending.written memory).coordinator.writes := by
      unfold written
      rw [cancelPending_eq]
      exact Nat.lt_succ_self _
    simpa [hwrites] using hs.cancelPending.written (live_cancelPending hs.timers) memory

theorem IsSettled.fire (hs : h.IsSettled begun) (due : List Timer) :
    ∃ h' reply, fire serve ls due h = some (h', reply) ∧
      h'.IsSettled (begun || decide (h.coordinator.writes < h'.coordinator.writes)) := by
  induction due with
  | nil =>
    refine ⟨h, _, rfl, ?_⟩
    simpa using hs
  | cons timer due ih =>
    unfold Hub.fire
    by_cases hl : h.timers.isLive timer.id
    · rw [if_pos hl]
      dsimp only
      have hlive := live_remove_eq_nil hs.timers (pending_eq_of_isLive hs.timers hl)
      have hsound : IsSound begun
          { h with
            timers := h.timers.remove timer.id
            coordinator := { h.coordinator with pending := none } } :=
        ⟨hs.flow, by simp [hlive], hs.text, hs.error⟩
      obtain ⟨memory, fault, hwrite⟩ := writeText_quiet serve hq
        { h with
          timers := h.timers.remove timer.id
          coordinator := { h.coordinator with pending := none } }
      have hwritten := hsound.written hlive memory
      rw [hwrite]
      cases fault with
      | some fault =>
        refine ⟨_, _, rfl, ?_⟩
        simpa [written] using hwritten
      | none =>
        -- The one live timer has fired: no other one is left.
        refine ⟨_, _, fire_of_live_eq_nil serve ls hlive due, ?_⟩
        simpa [written] using hwritten
    · rw [if_neg hl]
      exact ih

theorem IsSettled.serveWith (hs : h.IsSettled begun) {call : Call} (hc : call.IsAllowed h) :
    ∃ h' reply, serveWith serve ls h call = some (h', reply) ∧
      h'.IsSettled (begun || call.edits h ||
        decide (h.coordinator.writes < h'.coordinator.writes)) := by
  cases call with
  | setText text => exact hs.setText serve hq text
  | store op =>
    obtain ⟨h', result, hoperate, hsettled⟩ := hs.operate serve hq hc.1 hc.2
    refine ⟨h', _, by rw [Hub.serveWith, hoperate]; rfl, ?_⟩
    simpa [Call.edits] using hsettled
  | flush =>
    obtain ⟨h', reply, hflush, hsettled⟩ := hs.flush serve hq
    refine ⟨h', reply, hflush, ?_⟩
    simpa [Call.edits] using hsettled
  | cancel => exact absurd hc id
  | advance ms =>
    have hadvanced : IsSettled begun { h with timers := h.timers.advance ms } :=
      ⟨⟨hs.flow, hs.timers, hs.text, hs.error⟩, hs.phase, hs.graph⟩
    obtain ⟨h', reply, hfire, hsettled⟩ := hadvanced.fire serve hq (h.timers.advance ms).due
    refine ⟨h', reply, hfire, ?_⟩
    simpa [Call.edits] using hsettled

end Calls

section Runs

variable {ls : Listeners Memory} (hq : ls.AreQuiet)
include hq

theorem IsReached.isSettled (hr : IsReached ls begun h) : h.IsSettled begun := by
  induction hr with
  | start hflow delay memory => exact isSettled_start hflow delay memory
  | @step begun h h' call depth reply _ hc hs ih =>
    cases depth with
    | zero => cases hs
    | succ depth =>
      obtain ⟨served, answer, hserve, hsettled⟩ := ih.serveWith (serve ls depth) hq hc
      have heq : some (served, answer) = some (h', reply) := hserve.symm.trans hs
      cases heq
      exact hsettled

/-- Where listeners do not call back, every allowed call is served in every state that is reached.
-/
theorem IsReached.exists_served (hr : IsReached ls begun h) {call : Call} (hc : call.IsAllowed h)
    (depth : Nat) : ∃ h' reply, serve ls (depth + 1) h call = some (h', reply) := by
  obtain ⟨h', reply, hserve, -⟩ := (hr.isSettled hq).serveWith (serve ls depth) hq hc
  exact ⟨h', reply, hserve⟩

/-- From the first edit or write on, text and graph agree exactly where no position breaks the
reading of the text off. -/
theorem IsReached.agrees_iff_isReadable (hr : IsReached ls true h) : h.Agrees ↔ h.IsReadable := by
  have hs := hr.isSettled hq
  constructor
  · intro ha
    apply Diagram.exists_outcome_iff.mp
    cases herror : h.coordinator.error with
    | none =>
      obtain ⟨reading, hread⟩ := ha.read.mp herror
      exact ⟨_, hread⟩
    | some e => exact ⟨_, ha.refused e herror⟩
  · intro hreadable
    obtain ⟨outcome, hread⟩ := Diagram.exists_outcome_iff.mpr hreadable
    have herror := hs.error rfl outcome hread
    refine ⟨?_, ?_, hs.graph rfl hreadable⟩
    · cases outcome <;> simp [herror, hread, refusal?]
    · intro e he
      rw [herror] at he
      cases outcome with
      | ok reading => cases he
      | error refused =>
        cases he
        exact hread

end Runs

def noListeners : Listeners Unit := ⟨[], []⟩

/-- The second position is preceded by a separator that only looks like a blank. -/
def brokenText : String :=
  "flowchart TD\nA --> B\nlinkStyle 0,\x1f0 stroke:red"

/-- The text of one edge is taken in, and then the text that also styles it. -/
def afterBrokenText? : Option (Hub Unit) := do
  let (h, _) ← serve noListeners 1 (.start .empty none ()) (.setText "flowchart TD\nA --> B")
  let (h, _) ← serve noListeners 1 h (.setText brokenText)
  some h

theorem breaksOff_brokenText : Diagram.BreaksOff brokenText := by
  have hfails : (readArranged brokenText).toOption.isNone = true := by decide +kernel
  cases hread : readArranged brokenText with
  | error e => exact Diagram.breaksOff_iff.mpr ⟨e, hread⟩
  | ok outcome =>
    rw [hread] at hfails
    cases hfails

/-- A text is read, a second one breaks off, and nothing tells that the graph is still that of the
first. -/
theorem not_agrees_afterBrokenText : ∃ h, afterBrokenText? = some h ∧ noListeners.AreQuiet ∧
    IsReached noListeners true h ∧ ¬h.Agrees := by
  have hquiet : noListeners.AreQuiet := by
    constructor <;> simp [noListeners]
  have htext : afterBrokenText?.map (·.coordinator.text) = some brokenText := by decide +kernel
  obtain ⟨h, hserved, hbroken⟩ := Option.map_eq_some_iff.mp htext
  have hreached : IsReached noListeners true h := by
    unfold afterBrokenText? at hserved
    obtain ⟨⟨first, _⟩, hfirst, hserved⟩ := Option.bind_eq_some_iff.mp hserved
    obtain ⟨⟨second, _⟩, hsecond, hserved⟩ := Option.bind_eq_some_iff.mp hserved
    cases hserved
    have hstart : IsReached noListeners false (.start .empty none ()) := .start rfl none ()
    have hone := IsReached.step hstart (Call.isAllowed_setText _ _) hfirst
    have htwo := IsReached.step hone (Call.isAllowed_setText _ _) hsecond
    have hedits : Call.edits (.start .empty none () : Hub Unit)
        (.setText "flowchart TD\nA --> B") = true := by decide
    simpa [hedits] using htwo
  refine ⟨h, hserved, hquiet, hreached, ?_⟩
  intro hagrees
  have hreadable := (IsReached.agrees_iff_isReadable hquiet hreached).mp hagrees
  apply hreadable
  rw [hbroken]
  exact breaksOff_brokenText

end Hub
end Flowchart.Live
