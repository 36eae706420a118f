import Flowchart.Diagram.Check
import Flowchart.Proofs.Graph.Keyed
import Mathlib.Data.List.ProdSigma

/-! The errors of the check: each end of an edge that is no node, and nothing else. The edges of a
document without nodes are not looked at. -/
namespace Flowchart

def Edge.endId (e : Edge) : EdgeEnd → String
  | .source => e.source
  | .target => e.target

namespace Document

variable {d : Document} {issue : Issue}

/-- The ends of edges under whose ids no node stands, each with its edge. -/
def danglingEnds (d : Document) : List (Edge × EdgeEnd) :=
  (d.edges ×ˢ [EdgeEnd.source, .target]).filter fun (e, which) => e.endId which ∉ d.nodes.keys

theorem mem_danglingEnds_iff {e : Edge} {which : EdgeEnd} :
    (e, which) ∈ d.danglingEnds ↔ e ∈ d.edges ∧ e.endId which ∉ d.nodes.keys := by
  have hboth : which ∈ [EdgeEnd.source, .target] := by cases which <;> simp
  simp only [danglingEnds, List.mem_filter, List.mem_product, hboth, and_true, decide_eq_true_eq]

theorem danglingEnds_eq_nil_iff : d.danglingEnds = [] ↔
    ∀ e ∈ d.edges, e.source ∈ d.nodes.keys ∧ e.target ∈ d.nodes.keys := by
  rw [List.eq_nil_iff_forall_not_mem]
  constructor
  · intro h e he
    have hend : ∀ which, e.endId which ∈ d.nodes.keys := by
      intro which
      by_contra hmissing
      exact h (e, which) (mem_danglingEnds_iff.mpr ⟨he, hmissing⟩)
    exact ⟨hend .source, hend .target⟩
  · rintro h ⟨e, which⟩ hmem
    obtain ⟨he, hmissing⟩ := mem_danglingEnds_iff.mp hmem
    obtain ⟨hsource, htarget⟩ := h e he
    cases which with
    | source => exact hmissing hsource
    | target => exact hmissing htarget

section Errors

theorem severity_of_mem_orphanIssues {nodes : List Node} {edges : List Edge}
    (hi : issue ∈ orphanIssues nodes edges) : issue.severity = .info := by
  unfold orphanIssues at hi
  dsimp only at hi
  split at hi
  · cases hi
  · rw [List.mem_singleton.mp hi]
    rfl

theorem severity_of_mem_nodeIssues {node : Node} (hi : issue ∈ nodeIssues node) :
    issue.severity = .warning := by
  have hone : issue = .badIdentifier node.id ∨ issue = .emptyLabel node.id ∨
      issue = .lostLabel node.id node.shape ∨ issue = .arrowInLabel node.id := by
    unfold nodeIssues at hi
    dsimp only at hi
    split_ifs at hi <;> simp at hi <;> tauto
  rcases hone with rfl | rfl | rfl | rfl <;> rfl

theorem exists_of_mem_duplicateIssues {seen : List (String × String)} {edges : List Edge}
    (hi : issue ∈ duplicateIssues seen edges) :
    ∃ edge source target, issue = .duplicateEdge edge source target := by
  induction edges generalizing seen with
  | nil => cases hi
  | cons edge edges ih =>
    rw [duplicateIssues, List.mem_append] at hi
    rcases hi with hi | hi
    · split_ifs at hi
      · exact ⟨_, _, _, List.mem_singleton.mp hi⟩
      · cases hi
    · exact ih hi

def endIssue (dangling : Edge × EdgeEnd) : Issue :=
  .missingEndpoint dangling.1.id dangling.2 (dangling.1.endId dangling.2)

theorem filter_edgeIssues (ids : List String) (e : Edge) :
    (edgeIssues ids e).filter (·.severity == .error) =
      ((([EdgeEnd.source, .target].map (e, ·)).filter fun (e, which) => e.endId which ∉ ids).map
        endIssue) := by
  unfold edgeIssues
  split_ifs <;> simp_all [Edge.endId, endIssue, Issue.severity]

/-- Where there are nodes, the errors are those for the dangling ends, in their order. -/
theorem filter_issues (h : d.nodes.values ≠ []) :
    d.issues.filter (·.severity == .error) = d.danglingEnds.map endIssue := by
  have horphans : (orphanIssues d.nodes.values d.edges).filter (·.severity == .error) = [] := by
    rw [List.filter_eq_nil_iff]
    intro issue hi
    rw [severity_of_mem_orphanIssues hi]
    decide
  have hnodes : (d.nodes.values.flatMap nodeIssues).filter (·.severity == .error) = [] := by
    rw [List.filter_eq_nil_iff]
    intro issue hi
    obtain ⟨node, -, hi⟩ := List.mem_flatMap.mp hi
    rw [severity_of_mem_nodeIssues hi]
    decide
  have hduplicates : (duplicateIssues [] d.edges).filter (·.severity == .error) = [] := by
    rw [List.filter_eq_nil_iff]
    intro issue hi
    obtain ⟨_, _, _, rfl⟩ := exists_of_mem_duplicateIssues hi
    exact Bool.false_ne_true
  have hedges : (d.edges.flatMap (edgeIssues d.nodes.keys)).filter (·.severity == .error) =
      d.danglingEnds.map endIssue := by
    change _ = (List.filter _ (d.edges.flatMap _)).map _
    rw [List.filter_flatMap, List.filter_flatMap, List.map_flatMap]
    exact List.flatMap_congr fun e _ => filter_edgeIssues d.nodes.keys e
  unfold issues
  dsimp only
  rw [if_neg (by simpa using h), List.filter_append, List.filter_append, List.filter_append,
    horphans, hnodes, hedges, hduplicates]
  simp

theorem issues_of_values_eq_nil (h : d.nodes.values = []) : d.issues = [.noNodes] := by
  unfold issues
  rw [h]
  rfl

theorem exists_of_error (hi : issue ∈ d.issues) (herror : issue.severity = .error) :
    ∃ e ∈ d.edges, ∃ which, e.endId which ∉ d.nodes.keys := by
  by_cases hnodes : d.nodes.values = []
  · rw [issues_of_values_eq_nil hnodes, List.mem_singleton] at hi
    subst hi
    cases herror
  · have hmem : issue ∈ d.issues.filter (·.severity == .error) :=
      List.mem_filter.mpr ⟨hi, beq_iff_eq.mpr herror⟩
    rw [filter_issues hnodes, List.mem_map] at hmem
    obtain ⟨⟨e, which⟩, hdangling, -⟩ := hmem
    obtain ⟨he, hmissing⟩ := mem_danglingEnds_iff.mp hdangling
    exact ⟨e, he, which, hmissing⟩

end Errors

section Verdict

/-- The verdict of the check is the one on the ends of edges: a document is valid exactly if all of
them are nodes, and there is one error for each that is not. -/
structure IsJudgedByEnds (d : Document) : Prop where
  valid : (IssueSummary.of d.issues).valid = true ↔
    ∀ e ∈ d.edges, e.source ∈ d.nodes.keys ∧ e.target ∈ d.nodes.keys
  errors : (IssueSummary.of d.issues).errors = d.danglingEnds.length

theorem valid_iff_errors_eq_zero (s : IssueSummary) : s.valid = true ↔ s.errors = 0 :=
  beq_iff_eq

theorem isJudgedByEnds_of_errors (h : (IssueSummary.of d.issues).errors = d.danglingEnds.length) :
    d.IsJudgedByEnds where
  valid := by
    rw [valid_iff_errors_eq_zero, h, List.length_eq_zero_iff, danglingEnds_eq_nil_iff]
  errors := h

theorem errors_of_values_ne_nil (h : d.nodes.values ≠ []) :
    (IssueSummary.of d.issues).errors = d.danglingEnds.length := by
  change d.issues.countP (·.severity == .error) = _
  rw [List.countP_eq_length_filter, filter_issues h, List.length_map]

theorem errors_of_values_eq_nil (h : d.nodes.values = []) :
    (IssueSummary.of d.issues).errors = 0 := by
  rw [issues_of_values_eq_nil h]
  rfl

/-- The verdict is the one on the ends of edges exactly if the document has nodes or has no edges.
Without nodes it is valid, whatever its edges name. The ids of nodes are those that they stand under,
which are their own in what is read from a text or from JSON. -/
theorem isJudgedByEnds_iff (d : Document) :
    (d.IsJudgedByEnds ↔ (d.nodes.values = [] → d.edges = [])) ∧
    (d.nodes.values = [] → (IssueSummary.of d.issues).valid = true) ∧
    (d.KeyedById → d.nodes.keys = d.nodes.values.map Node.id) := by
  refine ⟨⟨fun h hnodes => ?_, fun h => ?_⟩, fun hnodes => ?_, fun hkeyed => ?_⟩
  · have hnone : d.danglingEnds = [] := by
      rw [← List.length_eq_zero_iff, ← h.errors, errors_of_values_eq_nil hnodes]
    have hkeys : d.nodes.keys = [] := by
      rw [Keyed.values, List.map_eq_nil_iff] at hnodes
      rw [Keyed.keys, hnodes, List.map_nil]
    rw [List.eq_nil_iff_forall_not_mem]
    intro e he
    have hsource := (danglingEnds_eq_nil_iff.mp hnone e he).1
    rw [hkeys] at hsource
    cases hsource
  · by_cases hnodes : d.nodes.values = []
    · refine isJudgedByEnds_of_errors ?_
      rw [errors_of_values_eq_nil hnodes, danglingEnds, h hnodes]
      rfl
    · exact isJudgedByEnds_of_errors (errors_of_values_ne_nil hnodes)
  · exact (valid_iff_errors_eq_zero _).mpr (errors_of_values_eq_nil hnodes)
  · exact (Keyed.keyedBy_iff.mpr hkeyed).map_values.symm

/-- An edge between two nodes that are not there, as nothing is. -/
def nodelessDocument : Document :=
  { Document.empty with edges := [⟨"e1", "A", "B", none, .arrow, .standard⟩] }

/-- Both ends of the edge are missing, and the check finds no error. -/
theorem not_isJudgedByEnds_nodelessDocument : nodelessDocument.KeyedById ∧
    nodelessDocument.danglingEnds.length = 2 ∧
    (IssueSummary.of nodelessDocument.issues).errors = 0 ∧
    (IssueSummary.of nodelessDocument.issues).valid = true ∧ ¬nodelessDocument.IsJudgedByEnds := by
  obtain ⟨hjudged, hvalid, -⟩ := isJudgedByEnds_iff nodelessDocument
  have hkeyed : nodelessDocument.KeyedById := by
    intro entry he
    cases he
  refine ⟨hkeyed, by decide, by decide, hvalid rfl, fun h => ?_⟩
  exact absurd (hjudged.mp h rfl) (by simp [nodelessDocument])

end Verdict

end Document
end Flowchart
