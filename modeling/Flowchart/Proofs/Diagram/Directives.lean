import Flowchart.Proofs.Diagram.BodyLines

/-! Style lines stand anywhere below the header: what counts is the order among the style lines for
nodes, among those for edges, and among all other lines. -/
namespace Flowchart

open Diagram
open NumberedLine (contentOf?)

def Issue.unnumbered : Issue → Issue
  | skippedLine _ reason text => skippedLine 0 reason text
  | positionOutOfRange _ position edgeCount => positionOutOfRange 0 position edgeCount
  | issue => issue

namespace Diagram

def Reading.unnumbered (reading : Reading) : Reading :=
  { reading with issues := reading.issues.map Issue.unnumbered }

def contents (text : String) : List (List Char) :=
  (Text.lines text.toList).filterMap contentOf?

def stylesNode (line : List Char) : Bool :=
  (NodeStyleLine.read? line).isSome

def stylesEdges (line : List Char) : Bool :=
  (EdgeStyleLine.accepted? line).isSome

def stylesNothing (line : List Char) : Bool :=
  !stylesNode line && !stylesEdges line

/-- One text is the other with its lines below the header in another order, in which the style lines
for nodes follow each other as before, the style lines for edges do, and all other lines do. -/
structure Rearranged (text other : String) : Prop where
  header : (contents text).head? = (contents other).head?
  nodeStyles : (contents text).tail.filter stylesNode = (contents other).tail.filter stylesNode
  edgeStyles : (contents text).tail.filter stylesEdges = (contents other).tail.filter stylesEdges
  rest : (contents text).tail.filter stylesNothing = (contents other).tail.filter stylesNothing

variable {text other : String}

instance (text other : String) : Decidable (Rearranged text other) :=
  decidable_of_iff _ ⟨fun ⟨h₁, h₂, h₃, h₄⟩ => ⟨h₁, h₂, h₃, h₄⟩,
    fun ⟨h₁, h₂, h₃, h₄⟩ => (⟨h₁, h₂, h₃, h₄⟩ : _ ∧ _ ∧ _ ∧ _)⟩

/-- The three groups take up all lines. -/
theorem Rearranged.perm (h : Rearranged text other) :
    (contents text).tail.Perm (contents other).tail := by
  rw [List.perm_iff_count]
  intro line
  cases hnode : stylesNode line with
  | true => rw [← List.count_filter hnode, h.nodeStyles, List.count_filter hnode]
  | false =>
    cases hedge : stylesEdges line with
    | true => rw [← List.count_filter hedge, h.edgeStyles, List.count_filter hedge]
    | false =>
      have hrest : stylesNothing line = true := by simp [stylesNothing, hnode, hedge]
      rw [← List.count_filter hrest, h.rest, List.count_filter hrest]

section Groups

theorem contents_bodyLines (text : String) :
    (bodyLines text).map (·.content) = (contents text).tail.filter (!·.isEmpty) := by
  rw [contents, ← NumberedLine.contents_ofText, ← List.map_tail, List.filter_map]
  rfl

theorem flatMap_bodyLines_congr {α : Type} {group : List Char → Bool} {f : List Char → List α}
    (hf : ∀ line, group line = false → f line = [])
    (h : (contents text).tail.filter group = (contents other).tail.filter group) :
    (bodyLines text).flatMap (fun line => f line.content) =
      (bodyLines other).flatMap fun line => f line.content := by
  have hcontents : ∀ text, (bodyLines text).flatMap (fun line => f line.content) =
      (((contents text).tail.filter group).filter (!·.isEmpty)).flatMap f := by
    intro text
    rw [← List.flatMap_map, contents_bodyLines, ← flatMap_filter hf, List.filter_comm]
  rw [hcontents, hcontents, h]

theorem ofLine_of_styles {line : List Char} (h : stylesNothing line = false) :
    (∃ style, Statement.ofLine line = .nodeStyle style) ∨
      ∃ style, Statement.ofLine line = .edgeStyle style := by
  rw [stylesNothing, ← Bool.not_or, Bool.not_eq_false', Bool.or_eq_true] at h
  rcases h with h | h
  · obtain ⟨style, hstyle⟩ := Option.isSome_iff_exists.mp h
    exact .inl ⟨style, (Statement.Says.nodeStyle hstyle).eq_ofLine.symm⟩
  · obtain ⟨style, hstyle⟩ := Option.isSome_iff_exists.mp h
    exact .inr ⟨style, (Statement.Says.edgeStyle
      (EdgeStyleLine.accepted?_eq_some_iff.mp hstyle)).eq_ofLine.symm⟩

theorem Rearranged.flatMap_rest {α : Type} (h : Rearranged text other)
    {f : List Char → Statement → List α} (hnode : ∀ line style, f line (.nodeStyle style) = [])
    (hedge : ∀ line style, f line (.edgeStyle style) = []) :
    (bodyLines text).flatMap (fun line => f line.content (.ofLine line.content)) =
      (bodyLines other).flatMap fun line => f line.content (.ofLine line.content) := by
  refine flatMap_bodyLines_congr (f := fun line => f line (.ofLine line)) (fun line hline => ?_)
    h.rest
  rcases ofLine_of_styles hline with ⟨style, hs⟩ | ⟨style, hs⟩
  · rw [hs, hnode]
  · rw [hs, hedge]

end Groups

section Same

variable (h : Rearranged text other)
include h

theorem Rearranged.refs_eq :
    (bodyStatements text).flatMap Statement.refs = (bodyStatements other).flatMap Statement.refs := by
  rw [flatMap_bodyStatements, flatMap_bodyStatements]
  exact h.flatMap_rest (f := fun _ s => s.refs) (fun _ _ => rfl) fun _ _ => rfl

theorem Rearranged.edges_eq :
    (bodyStatements text).filterMap Statement.edge? =
      (bodyStatements other).filterMap Statement.edge? := by
  rw [filterMap_bodyStatements, filterMap_bodyStatements]
  exact h.flatMap_rest (f := fun _ s => s.edge?.toList) (fun _ _ => rfl) fun _ _ => rfl

theorem Rearranged.nodeStyles_eq :
    (bodyStatements text).filterMap Statement.nodeStyle? =
      (bodyStatements other).filterMap Statement.nodeStyle? := by
  rw [filterMap_bodyStatements, filterMap_bodyStatements]
  refine flatMap_bodyLines_congr (f := fun line => (Statement.ofLine line).nodeStyle?.toList)
    (fun line hline => ?_) h.nodeStyles
  rw [Statement.nodeStyle?_ofLine]
  simpa [stylesNode] using hline

theorem Rearranged.edgeStyles_eq :
    (bodyStatements text).filterMap Statement.edgeStyle? =
      (bodyStatements other).filterMap Statement.edgeStyle? := by
  rw [filterMap_bodyStatements, filterMap_bodyStatements]
  refine flatMap_bodyLines_congr (f := fun line => (Statement.ofLine line).edgeStyle?.toList)
    (fun line hline => ?_) h.edgeStyles
  rw [Statement.edgeStyle?_ofLine]
  simpa [stylesEdges] using hline

theorem Rearranged.error?_eq : error? (bodyLines text) = error? (bodyLines other) := by
  have herror : ∀ lines : List NumberedLine, error? lines =
      (lines.flatMap fun line => (Statement.ofLine line.content).error?.toList).head? := by
    intro lines
    rw [← List.filterMap_eq_flatMap_toList, List.head?_filterMap, error?]
  rw [herror, herror]
  exact congrArg List.head?
    (h.flatMap_rest (f := fun _ s => s.error?.toList) (fun _ _ => rfl) fun _ _ => rfl)

theorem Rearranged.skips_eq :
    ((bodyLines text).filterMap Draft.skipIssue?).map Issue.unnumbered =
      ((bodyLines other).filterMap Draft.skipIssue?).map Issue.unnumbered := by
  have hskips : ∀ lines : List NumberedLine,
      (lines.filterMap Draft.skipIssue?).map Issue.unnumbered =
        lines.flatMap fun line => ((Statement.ofLine line.content).skipped?.map fun reason =>
          Issue.skippedLine 0 reason (String.ofList line.content)).toList := by
    intro lines
    rw [List.map_filterMap, List.filterMap_eq_flatMap_toList]
    refine List.flatMap_congr fun line _ => ?_
    rw [Draft.skipIssue?, Option.map_map]
    rfl
  rw [hskips, hskips]
  exact h.flatMap_rest (f := fun line s => (s.skipped?.map fun reason =>
    Issue.skippedLine 0 reason (String.ofList line)).toList) (fun _ _ => rfl) fun _ _ => rfl

theorem Rearranged.ranges_eq (edgeCount : Nat) :
    ((bodyLines text).flatMap (Draft.rangeIssues edgeCount)).map Issue.unnumbered =
      ((bodyLines other).flatMap (Draft.rangeIssues edgeCount)).map Issue.unnumbered := by
  have hranges : ∀ lines : List NumberedLine,
      (lines.flatMap (Draft.rangeIssues edgeCount)).map Issue.unnumbered =
        lines.flatMap fun line => (Draft.rangeIssues edgeCount ⟨0, line.content⟩) := by
    intro lines
    rw [List.map_flatMap]
    refine List.flatMap_congr fun line _ => ?_
    simp only [Draft.rangeIssues, List.map_flatMap, List.map_map]
    rfl
  rw [hranges, hranges]
  refine flatMap_bodyLines_congr (f := fun line => Draft.rangeIssues edgeCount ⟨0, line⟩)
    (fun line hline => ?_) h.edgeStyles
  rw [Draft.rangeIssues, Statement.edgeStyle?_ofLine]
  have hnone : EdgeStyleLine.accepted? line = none := by simpa [stylesEdges] using hline
  rw [hnone]
  rfl

theorem Rearranged.unnumbered_finish (placed : Bool) (kind : DiagramKind) (direction : Direction) :
    ((((bodyLines text).foldl Draft.add .empty).finish kind direction).arrangedIf placed).unnumbered =
      ((((bodyLines other).foldl Draft.add .empty).finish kind direction).arrangedIf
        placed).unnumbered := by
  have hdocument := Draft.document_finish_congr (bodyStatements_eq text) kind direction
    (bodyStatements_eq other) h.refs_eq h.edges_eq h.nodeStyles_eq h.edgeStyles_eq
  have hissues :
      (((bodyLines text).foldl Draft.add .empty).finish kind direction).issues.map
          Issue.unnumbered =
        (((bodyLines other).foldl Draft.add .empty).finish kind direction).issues.map
          Issue.unnumbered := by
    rw [Draft.issues_finish_eq (bodyStatements_eq text),
      Draft.issues_finish_eq (bodyStatements_eq other), List.map_append, List.map_append, h.skips_eq,
      h.edges_eq, h.ranges_eq]
  unfold Reading.unnumbered
  rw [document_arrangedIf_congr hdocument, issues_arrangedIf, issues_arrangedIf, hissues]

/-- Rearranged texts are read as the same, with the same to report, but for the numbers of lines. -/
theorem Rearranged.unnumbered_readWith (placed : Bool) :
    (readWith placed text).map (fun outcome => outcome.map Reading.unnumbered) =
      (readWith placed other).map fun outcome => outcome.map Reading.unnumbered := by
  have hheader := h.header
  have herror := h.error?_eq
  have hfinish := h.unnumbered_finish placed
  rw [contents, contents, ← NumberedLine.contents_ofText, ← NumberedLine.contents_ofText,
    List.head?_map, List.head?_map] at hheader
  rw [readWith_eq_map, readWith_eq_map]
  unfold readChars
  unfold bodyLines at herror hfinish
  cases htext : NumberedLine.ofText text.toList with
  | nil =>
    have hother : NumberedLine.ofText other.toList = [] := by simpa [htext] using hheader.symm
    simp [hother, Except.map]
  | cons first rest =>
    cases hother : NumberedLine.ofText other.toList with
    | nil => simp [htext, hother] at hheader
    | cons first' rest' =>
      have hcontent : first.content = first'.content := by simpa [htext, hother] using hheader
      simp only [htext, hother, List.tail_cons] at herror hfinish
      simp only [hcontent]
      cases Header.kind? first'.content with
      | none => rfl
      | some kind =>
        cases hflow : kind.isFlow with
        | false => simp [hflow, Except.map]
        | true =>
          simp only [hflow, if_true, readBody, herror]
          cases error? (body rest') with
          | some e => rfl
          | none => simp [Except.map, hfinish]

end Same

/-- A style line for an edge that comes later, one for a node that comes later, and one in vain. -/
def earlyText : String :=
  "graph LR\nlinkStyle 0 stroke:red\nstyle B fill:red\nA --> B\n?\nlinkStyle 3 stroke:red"

/-- The same lines, each style line in another place. -/
def lateText : String :=
  "graph LR\nA --> B\nlinkStyle 0 stroke:red\nlinkStyle 3 stroke:red\n?\nstyle B fill:red"

/-- The two texts are read as the same document, with the same reports. -/
theorem unnumbered_earlyText : Rearranged earlyText lateText ∧
    (readWith true earlyText).map (fun outcome => outcome.map Reading.unnumbered) =
      (readWith true lateText).map fun outcome => outcome.map Reading.unnumbered := by
  have hrearranged : Rearranged earlyText lateText := by decide +kernel
  exact ⟨hrearranged, hrearranged.unnumbered_readWith true⟩

end Diagram
end Flowchart
