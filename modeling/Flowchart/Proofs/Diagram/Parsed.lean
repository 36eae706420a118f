import Flowchart.Proofs.Diagram.Check
import Flowchart.Proofs.Diagram.Unplaced
import Flowchart.Proofs.Layout.Places

/-! Whatever parses is a well-formed graph, with places for its nodes or without; of such a graph the
check has little to report. -/
namespace Flowchart

open Text Diagram

namespace Document

variable {d : Document} {node : Node}

section Arranged

variable (direction : Direction)

theorem forall_mem_arranged {p : Node → Prop}
    (hp : ∀ node position, p node → p { node with position := some position })
    (h : ∀ node ∈ d.nodes.values, p node) : ∀ node ∈ (d.arranged direction).nodes.values, p node := by
  intro node hn
  obtain ⟨old, hold, place, -, rfl⟩ := exists_of_mem_arranged hn
  exact hp old place.toPosition (h old hold)

theorem IsWellFormed.arranged (h : d.IsWellFormed) : (d.arranged direction).IsWellFormed where
  keyed := by
    intro key node hn
    simp only [Document.arranged, Keyed.find?_mapValues, Option.map_eq_some_iff] at hn
    obtain ⟨old, hfound, rfl⟩ := hn
    exact h.keyed key old hfound
  ids := forall_mem_arranged direction (fun _ _ hid => hid) h.ids
  labels := forall_mem_arranged direction (fun _ _ hlabel => hlabel) h.labels
  keeps := forall_mem_arranged direction (fun _ _ hkeeps => hkeeps) h.keeps
  nodeStyles := forall_mem_arranged direction (fun _ _ hstyle => hstyle) h.nodeStyles
  ends := by
    have hkeys : (d.arranged direction).nodes.keys = d.nodes.keys := Keyed.keys_mapValues _ _
    rw [hkeys]
    exact h.ends
  edgeLabels := h.edgeLabels
  edgeStyles := h.edgeStyles
  edgeIds := h.edgeIds
  lone := forall_mem_arranged direction (fun _ _ hlone => hlone) h.lone

end Arranged

/-- No two edges have the same id: each id tells the position of its edge. -/
theorem IsWellFormed.nodup_edgeIds (h : d.IsWellFormed) : (d.edges.map Edge.id).Nodup := by
  rw [List.Nodup, List.pairwise_iff_getElem]
  intro i j hi hj hij heq
  rw [List.length_map] at hi hj
  rw [List.getElem_map, List.getElem_map, h.edgeIds i _ (List.getElem?_eq_getElem hi),
    h.edgeIds j _ (List.getElem?_eq_getElem hj)] at heq
  exact Nat.ne_of_lt hij (Draft.eq_of_edgeId_eq heq)

section Issues

theorem IsWellFormed.eq_of_mem_nodeIssues (h : d.IsWellFormed) (hn : node ∈ d.nodes.values)
    {issue : Issue} (hi : issue ∈ nodeIssues node) : issue = .arrowInLabel node.id := by
  have hid : hasPlainId node.id.toList = true := by simp [hasPlainId, h.ids node hn]
  have hlabel : node.label.toList ≠ [] := by simpa using (h.labels node hn).1
  simp only [nodeIssues, hid, h.keeps node hn, if_true, List.isEmpty_iff, hlabel, if_false,
    List.nil_append] at hi
  split_ifs at hi
  · exact List.mem_singleton.mp hi
  · cases hi

theorem IsWellFormed.eq_of_mem_edgeIssues (h : d.IsWellFormed) {edge : Edge} (he : edge ∈ d.edges)
    {issue : Issue} (hi : issue ∈ edgeIssues d.nodes.keys edge) :
    issue = .selfLoop edge.id edge.source := by
  obtain ⟨hsource, htarget⟩ := h.ends edge he
  have hlabel : isLostEdgeLabel edge.label = false := by
    unfold isLostEdgeLabel
    cases hl : edge.label with
    | none => rfl
    | some label =>
      obtain ⟨-, hbar, hline⟩ := h.edgeLabels edge he label hl
      have hfeed : '\n' ∉ label.toList := fun hm => absurd (hline _ hm) (by decide)
      simp [hbar, hfeed]
  simp only [edgeIssues, List.contains_iff_mem, hsource, htarget, hlabel, if_true, List.nil_append,
    Bool.false_eq_true, if_false] at hi
  split_ifs at hi
  · exact List.mem_singleton.mp hi
  · cases hi

/-- What the check may still report on a well-formed document: notes, arrows in labels, loops and
doubled edges. -/
theorem IsWellFormed.cases_of_mem_issues (h : d.IsWellFormed) {issue : Issue}
    (hi : issue ∈ d.issues) : issue.severity = .info ∨ (∃ node, issue = .arrowInLabel node) ∨
      (∃ edge node, issue = .selfLoop edge node) ∨
        ∃ edge source target, issue = .duplicateEdge edge source target := by
  unfold issues at hi
  dsimp only at hi
  split_ifs at hi
  · rw [List.mem_singleton.mp hi]
    exact .inl rfl
  · simp only [List.mem_append, List.mem_flatMap] at hi
    rcases hi with ((hi | ⟨node, hn, hi⟩) | ⟨edge, he, hi⟩) | hi
    · exact .inl (severity_of_mem_orphanIssues hi)
    · exact .inr (.inl ⟨_, h.eq_of_mem_nodeIssues hn hi⟩)
    · exact .inr (.inr (.inl ⟨_, _, h.eq_of_mem_edgeIssues he hi⟩))
    · exact .inr (.inr (.inr (exists_of_mem_duplicateIssues hi)))

theorem IsWellFormed.valid_issues (h : d.IsWellFormed) :
    (IssueSummary.of d.issues).valid = true := by
  have hnone : ∀ issue ∈ d.issues, issue.severity ≠ .error := by
    intro issue hi
    rcases h.cases_of_mem_issues hi with hinfo | ⟨_, rfl⟩ | ⟨_, _, rfl⟩ | ⟨_, _, _, rfl⟩
    · simp [hinfo]
    all_goals simp [Issue.severity]
  simpa [IssueSummary.valid, IssueSummary.of] using hnone

end Issues

end Document

namespace Diagram

/-- Reads a text, with a place for every node where places are asked for. -/
def readWith (placed : Bool) (text : String) : Except PositionError Outcome :=
  if placed then readArranged text else Diagram.read text

variable {placed : Bool} {text : String} {reading : Reading}

theorem isWellFormed_of_readArranged (h : readArranged text = .ok (.ok reading)) :
    reading.document.IsWellFormed := by
  obtain ⟨bare, hread, rfl⟩ := readArranged_eq_reading_iff.mp h
  exact (isWellFormed_of_readChars hread).arranged _

/-- Whatever parses is a well-formed graph in which no edge id occurs twice and every node has a
place, or none has; the check finds it valid. -/
theorem isWellFormed_of_readWith (h : readWith placed text = .ok (.ok reading)) :
    reading.document.IsWellFormed ∧ (reading.document.edges.map Edge.id).Nodup ∧
      (∀ node ∈ reading.document.nodes.values, node.position.isSome = placed) ∧
      (∀ issue ∈ reading.document.issues, issue.severity = .info ∨
        (∃ node, issue = .arrowInLabel node) ∨ (∃ edge node, issue = .selfLoop edge node) ∨
          ∃ edge source target, issue = .duplicateEdge edge source target) ∧
      (IssueSummary.of reading.document.issues).valid = true := by
  obtain ⟨hformed, hplaced⟩ : reading.document.IsWellFormed ∧
      ∀ node ∈ reading.document.nodes.values, node.position.isSome = placed := by
    cases placed with
    | false =>
      have hread : readChars text.toList = .ok (.ok reading) := h
      refine ⟨isWellFormed_of_readChars hread, fun node hn => ?_⟩
      rw [position_of_readChars hread hn]
      rfl
    | true =>
      obtain ⟨bare, hread, rfl⟩ := readArranged_eq_reading_iff.mp h
      refine ⟨(isWellFormed_of_readChars hread).arranged _, fun node hn => ?_⟩
      obtain ⟨old, -, place, -, rfl⟩ := Document.exists_of_mem_arranged hn
      rfl
  exact ⟨hformed, hformed.nodup_edgeIds, hplaced, fun issue hi => hformed.cases_of_mem_issues hi,
    hformed.valid_issues⟩

def testReading (outcome : Except PositionError Outcome) (test : Reading → Bool) : Bool :=
  match outcome with
  | .ok (.ok reading) => test reading
  | _ => false

theorem exists_of_testReading {outcome : Except PositionError Outcome} {test : Reading → Bool}
    (h : testReading outcome test = true) :
    ∃ reading, outcome = .ok (.ok reading) ∧ test reading = true := by
  unfold testReading at h
  split at h
  · next reading => exact ⟨reading, rfl, h⟩
  · cases h

/-- A loop with an arrow in the label of its node, the same loop again, a node that only a style line
names, and a line that is not understood. -/
def tangledText : String :=
  "graph LR\nA[x ==> y] --> A\nA --> A\nstyle B fill:red\n?"

/-- The check reports five things on what is read from the tangled text, and finds it valid. -/
theorem isWellFormed_tangledText : ∃ reading, readWith true tangledText = .ok (.ok reading) ∧
    reading.document.IsWellFormed ∧ (IssueSummary.of reading.document.issues).total = 5 ∧
      (IssueSummary.of reading.document.issues).valid = true := by
  have htest : testReading (readWith true tangledText) (fun reading =>
      (IssueSummary.of reading.document.issues).total = 5) = true := by
    decide +kernel
  obtain ⟨reading, hread, htotal⟩ := exists_of_testReading htest
  have hsound := isWellFormed_of_readWith hread
  exact ⟨reading, hread, hsound.1, of_decide_eq_true htotal, hsound.2.2.2.2⟩

end Diagram
end Flowchart
