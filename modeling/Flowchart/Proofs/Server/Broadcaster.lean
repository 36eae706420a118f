import Flowchart.Server.Broadcaster
import Mathlib.Data.List.Induction

/-! No change is lost on the way to the editors: whenever the loop waits without a signal, every change
of the graph was told after it came, and the last text that came was the last one told. -/
namespace Flowchart.Server

/-- What a bystander sees of a run of the loop. -/
inductive Happening
  | graphCame
  | textCame (text : String)
  | began (message : Message)
deriving DecidableEq, Repr

namespace Happening

/-- A change of the graph came after the last broadcast about the graph began. -/
def owesGraph (log : List Happening) : Bool :=
  log.foldl (fun owed h =>
    match h with
    | graphCame => true
    | began .graphUpdated => false
    | _ => owed) false

/-- The last text that came, if no broadcast of a text began since. -/
def owedText (log : List Happening) : Option String :=
  log.foldl (fun owed h =>
    match h with
    | textCame text => some text
    | began (.textUpdated _) => none
    | _ => owed) none

def textsCame (log : List Happening) : List String :=
  log.filterMap fun h =>
    match h with
    | textCame text => some text
    | _ => none

def textsTold (log : List Happening) : List String :=
  log.filterMap fun h =>
    match h with
    | began (.textUpdated text) => some text
    | _ => none

/-- Texts are told in the order in which they came, each at most once. Whenever a broadcast of a text
begins, it is the last one that came, and it was not told before. -/
structure TellsInOrder (log : List Happening) : Prop where
  inOrder : (textsTold log).Sublist (textsCame log)
  newest : ∀ before text after, log = before ++ began (.textUpdated text) :: after →
    ∃ earlier between, before = earlier ++ textCame text :: between ∧
      ∀ other, textCame other ∉ between ∧ began (.textUpdated other) ∉ between

/-- Every change of the graph is told later, and every text unless a later one came; the last text told
is the last one that came. -/
structure TellsAll (log : List Happening) : Prop where
  graph : ∀ before after, log = before ++ graphCame :: after → began .graphUpdated ∈ after
  text : ∀ before text after, log = before ++ textCame text :: after →
    began (.textUpdated text) ∈ after ∨ ∃ later, textCame later ∈ after
  last : (textsTold log).getLast? = (textsCame log).getLast?

section Owed

variable {log after : List Happening}

theorem owesGraph_concat (log : List Happening) (h : Happening) :
    owesGraph (log ++ [h]) =
      match h with
      | graphCame => true
      | began .graphUpdated => false
      | _ => owesGraph log := by
  rw [owesGraph, List.foldl_append]
  rfl

theorem owedText_concat (log : List Happening) (h : Happening) :
    owedText (log ++ [h]) =
      match h with
      | textCame text => some text
      | began (.textUpdated _) => none
      | _ => owedText log := by
  rw [owedText, List.foldl_append]
  rfl

/-- Only a broadcast about the graph settles what is owed for a change of it. -/
theorem owesGraph_append (hafter : began .graphUpdated ∉ after) (h : owesGraph log = true) :
    owesGraph (log ++ after) = true := by
  induction after using List.reverseRecOn with
  | nil => rwa [List.append_nil]
  | append_singleton after last ih =>
    rw [List.mem_append, not_or, List.mem_singleton] at hafter
    rw [← List.append_assoc, owesGraph_concat]
    split
    · rfl
    · exact absurd rfl hafter.2
    · exact ih hafter.1

/-- A text after which no other came is owed until it is told, if only owed texts are told. -/
theorem mem_or_owedText {before : List Happening} {text : String}
    (hnewest : ∀ earlier other rest,
      before ++ textCame text :: after = earlier ++ began (.textUpdated other) :: rest →
        owedText earlier = some other)
    (hafter : ∀ later, textCame later ∉ after) :
    began (.textUpdated text) ∈ after ∨
      owedText (before ++ textCame text :: after) = some text := by
  induction after using List.reverseRecOn with
  | nil => exact .inr (owedText_concat before _)
  | append_singleton after last ih =>
    simp only [List.mem_append, List.mem_singleton, not_or] at hafter ⊢
    rw [← List.cons_append, ← List.append_assoc] at hnewest ⊢
    have hprefix := ih (fun earlier other rest hsplit =>
      hnewest earlier other (rest ++ [last]) (by rw [hsplit]; simp)) fun later => (hafter later).1
    rcases hprefix with htold | howed
    · exact .inl (.inl htold)
    rw [owedText_concat]
    split
    · exact absurd rfl (hafter _).2
    · next other =>
      have hother := hnewest _ other [] rfl
      rw [howed] at hother
      cases hother
      exact .inl (.inr rfl)
    · exact .inr howed

theorem exists_of_owedText {text : String} (h : owedText log = some text) :
    ∃ earlier between, log = earlier ++ textCame text :: between ∧
      ∀ other, textCame other ∉ between ∧ began (.textUpdated other) ∉ between := by
  induction log using List.reverseRecOn with
  | nil => cases h
  | append_singleton log last ih =>
    rw [owedText_concat] at h
    split at h
    · cases h
      exact ⟨log, [], rfl, by simp⟩
    · cases h
    · next hcame hbegan =>
      obtain ⟨earlier, between, rfl, hbetween⟩ := ih h
      refine ⟨earlier, between ++ [last], by simp, fun other => ?_⟩
      simp only [List.mem_append, List.mem_singleton, not_or]
      exact ⟨⟨(hbetween other).1, fun he => hcame _ he.symm⟩,
        ⟨(hbetween other).2, fun he => hbegan _ he.symm⟩⟩

end Owed
end Happening

namespace Broadcaster

open Happening

/-- What is seen of an event: what comes, and then the broadcast that begins. -/
def happenings (b : Broadcaster) (event : Event) : List Happening :=
  (match event with
    | .graph => [graphCame]
    | .text text => [textCame text]
    | .resume => []) ++ ((b.next event).2.toList.map began)

/-- The loop after events since its start, with what was seen of it. -/
def run (events : List Event) : Broadcaster × List Happening :=
  events.foldl (fun (b, log) event => ((b.next event).1, log ++ b.happenings event)) (start, [])

theorem run_concat (events : List Event) (event : Event) :
    run (events ++ [event]) =
      (((run events).1.next event).1, (run events).2 ++ (run events).1.happenings event) := by
  rw [run, List.foldl_append]
  rfl

/-- The loop knows what it owes, and has told everything else. -/
structure Tracks (b : Broadcaster) (log : List Happening) : Prop where
  graph : b.graphChanged = owesGraph log
  text : b.text = owedText log
  inOrder : (textsTold log ++ (owedText log).toList).Sublist (textsCame log)
  last : (textsTold log ++ (owedText log).toList).getLast? = (textsCame log).getLast?
  newest : ∀ before text after, log = before ++ began (.textUpdated text) :: after →
    owedText before = some text

/-- Something reminds the loop of what it owes: a signal, or its own next step. -/
structure IsReminded (b : Broadcaster) : Prop where
  graph : b.graphChanged = true → b.signalled = true
  text : b.text.isSome = true → b.signalled = true ∨ b.stage = .tellingGraph

theorem IsReminded.next {b : Broadcaster} (h : b.IsReminded) (event : Event) :
    (b.next event).1.IsReminded := by
  obtain ⟨hgraph, htext⟩ := h
  obtain ⟨signalled, graphChanged, text, stage⟩ := b
  cases event with
  | graph => exact ⟨fun _ => rfl, fun _ => .inl rfl⟩
  | text new => exact ⟨fun _ => rfl, fun _ => .inl rfl⟩
  | resume =>
    cases stage <;> cases signalled <;> cases graphChanged <;> cases text <;>
      constructor <;> simp_all [Broadcaster.next, resume, tellGraph, tellText]

section Tracks

variable {b b' : Broadcaster} {log : List Happening}

theorem newest_concat {h : Happening}
    (hnewest : ∀ before text after, log = before ++ began (.textUpdated text) :: after →
      owedText before = some text)
    (hlast : ∀ text, h = began (.textUpdated text) → owedText log = some text) :
    ∀ before text after, log ++ [h] = before ++ began (.textUpdated text) :: after →
      owedText before = some text := by
  intro before text after hsplit
  rcases List.eq_nil_or_concat after with rfl | ⟨after, last, rfl⟩
  · obtain ⟨rfl, hh⟩ := List.append_inj' hsplit rfl
    exact hlast text (List.singleton_inj.mp hh)
  · rw [List.concat_eq_append, ← List.cons_append, ← List.append_assoc] at hsplit
    exact hnewest before text after (List.append_inj' hsplit rfl).1

theorem Tracks.noteGraph (h : b.Tracks log) : b.noteGraph.Tracks (log ++ [graphCame]) where
  graph := by rw [owesGraph_concat]; rfl
  text := by rw [owedText_concat]; exact h.text
  inOrder := by simpa [owedText_concat, textsTold, textsCame] using h.inOrder
  last := by simpa [owedText_concat, textsTold, textsCame] using h.last
  newest := newest_concat h.newest (by simp)

theorem Tracks.noteText (h : b.Tracks log) (text : String) :
    (b.noteText text).Tracks (log ++ [textCame text]) where
  graph := by rw [owesGraph_concat]; exact h.graph
  text := by rw [owedText_concat]; rfl
  inOrder := by
    have htold : (textsTold log).Sublist (textsCame log) :=
      (List.sublist_append_left _ _).trans h.inOrder
    simpa [owedText_concat, textsTold, textsCame] using htold
  last := by simp [owedText_concat, textsTold, textsCame]
  newest := newest_concat h.newest (by simp)

theorem Tracks.beginGraph (h : b.Tracks log) (hgraph : b'.graphChanged = false)
    (htext : b'.text = b.text) : b'.Tracks (log ++ [began .graphUpdated]) where
  graph := by rw [owesGraph_concat]; exact hgraph
  text := by rw [owedText_concat, htext]; exact h.text
  inOrder := by simpa [owedText_concat, textsTold, textsCame] using h.inOrder
  last := by simpa [owedText_concat, textsTold, textsCame] using h.last
  newest := newest_concat h.newest (by simp)

theorem Tracks.beginText (h : b.Tracks log) {text : String} (hb : b.text = some text)
    (hgraph : b'.graphChanged = b.graphChanged) (htext : b'.text = none) :
    b'.Tracks (log ++ [began (.textUpdated text)]) := by
  have howed : owedText log = some text := h.text.symm.trans hb
  have hinOrder := h.inOrder
  have hlast := h.last
  rw [howed] at hinOrder hlast
  constructor
  · rw [owesGraph_concat]
    exact hgraph.trans h.graph
  · rw [owedText_concat]
    exact htext
  · simpa [owedText_concat, textsTold, textsCame] using hinOrder
  · simpa [owedText_concat, textsTold, textsCame] using hlast
  · refine newest_concat h.newest fun other hother => ?_
    cases hother
    exact howed

theorem Tracks.stay (h : b.Tracks log) (hgraph : b'.graphChanged = b.graphChanged)
    (htext : b'.text = b.text) : b'.Tracks log :=
  { h with graph := hgraph.trans h.graph, text := htext.trans h.text }

theorem Tracks.tellText (h : b.Tracks log) :
    b.tellText.1.Tracks (log ++ b.tellText.2.toList.map began) := by
  unfold Broadcaster.tellText
  split
  · next text htext => exact h.beginText htext rfl rfl
  · next hnone =>
    rw [Option.toList_none, List.map_nil, List.append_nil]
    exact h.stay rfl rfl

theorem Tracks.tellGraph (h : b.Tracks log) :
    b.tellGraph.1.Tracks (log ++ b.tellGraph.2.toList.map began) := by
  unfold Broadcaster.tellGraph
  split
  · exact h.beginGraph rfl rfl
  · exact h.tellText

theorem Tracks.resume (h : b.Tracks log) :
    b.resume.1.Tracks (log ++ b.resume.2.toList.map began) := by
  unfold Broadcaster.resume
  split
  · split
    · have hcleared : Tracks { b with signalled := false } log := h.stay rfl rfl
      exact hcleared.tellGraph
    · rwa [Option.toList_none, List.map_nil, List.append_nil]
  · exact h.tellText
  · rw [Option.toList_none, List.map_nil, List.append_nil]
    exact h.stay rfl rfl

theorem Tracks.next (h : b.Tracks log) (event : Event) :
    (b.next event).1.Tracks (log ++ b.happenings event) := by
  cases event with
  | graph => exact h.noteGraph
  | text text => exact h.noteText text
  | resume => exact h.resume

end Tracks

theorem tracks_run (events : List Event) :
    (run events).1.Tracks (run events).2 ∧ (run events).1.IsReminded := by
  induction events using List.reverseRecOn with
  | nil =>
    refine ⟨⟨rfl, rfl, List.Sublist.refl _, rfl, ?_⟩, by decide, by decide⟩
    simp [run]
  | append_singleton events event ih =>
    rw [run_concat]
    exact ⟨ih.1.next event, ih.2.next event⟩

section Settled

variable {b : Broadcaster} {log : List Happening}

theorem Tracks.tellsInOrder (h : b.Tracks log) : TellsInOrder log where
  inOrder := (List.sublist_append_left _ _).trans h.inOrder
  newest := fun before text after hsplit => exists_of_owedText (h.newest before text after hsplit)

/-- A loop that waits without a signal owes nothing. -/
theorem Tracks.owes_nothing (h : b.Tracks log) (hreminded : b.IsReminded)
    (hsettled : b.isSettled = true) : owesGraph log = false ∧ owedText log = none := by
  rw [isSettled, Bool.and_eq_true, beq_iff_eq, Bool.not_eq_true'] at hsettled
  obtain ⟨hstage, hsignal⟩ := hsettled
  constructor
  · rw [← h.graph, ← Bool.not_eq_true]
    intro hgraph
    rw [hreminded.graph hgraph] at hsignal
    cases hsignal
  · rw [← h.text, ← Option.not_isSome_iff_eq_none]
    intro htext
    rcases hreminded.text htext with hs | hs
    · rw [hs] at hsignal
      cases hsignal
    · rw [hs] at hstage
      cases hstage

theorem Tracks.tellsAll (h : b.Tracks log) (hgraph : owesGraph log = false)
    (htext : owedText log = none) : TellsAll log where
  graph := by
    intro before after hsplit
    by_contra hafter
    have howed : owesGraph (before ++ [graphCame]) = true := owesGraph_concat _ _
    have := owesGraph_append hafter howed
    rw [List.append_assoc, List.singleton_append, ← hsplit, hgraph] at this
    cases this
  text := by
    intro before text after hsplit
    rw [or_iff_not_imp_right, not_exists]
    intro hlater
    have htold := mem_or_owedText (fun earlier other rest hrest => h.newest earlier other rest
      (hsplit.trans hrest)) hlater
    rw [← hsplit, htext] at htold
    exact htold.resolve_right nofun
  last := by
    have hlast := h.last
    rwa [htext, Option.toList_none, List.append_nil] at hlast

end Settled

/-- Whatever comes while the loop waits or while one of its broadcasts is under way, texts are told in
the order in which they came and none twice. Whenever the loop waits without a signal, each change of
the graph was told after it came, each text was told unless a later one came, and the last text told is
the last one that came. -/
theorem tellsAll_run (events : List Event) :
    TellsInOrder (run events).2 ∧
      ((run events).1.isSettled = true → TellsAll (run events).2) := by
  obtain ⟨htracks, hreminded⟩ := tracks_run events
  refine ⟨htracks.tellsInOrder, fun hsettled => ?_⟩
  obtain ⟨hgraph, htext⟩ := htracks.owes_nothing hreminded hsettled
  exact htracks.tellsAll hgraph htext

/-- A text and a change come while the graph is told, another text while the first is told. -/
theorem tellsAll_run_busy :
    let events : List Event := [.graph, .text "a", .resume, .text "b", .graph, .resume, .text "c",
      .resume, .resume, .resume, .resume]
    (run events).1.isSettled = true ∧ textsTold (run events).2 = ["b", "c"] ∧
      TellsAll (run events).2 :=
  ⟨by decide, by decide, (tellsAll_run _).2 (by decide)⟩

end Broadcaster
end Flowchart.Server
