import Flowchart.Proofs.Diagram.Parsed
import Mathlib.Data.List.Sort

/-! The lines below the header: which they are, and that a reading is what they add up to. -/
namespace Flowchart

open Text Diagram

namespace NumberedLine

variable {raws : List (List Char)} {number : Nat} {line : NumberedLine}

theorem contentOf?_nil : contentOf? [] = none := rfl

theorem significant_cons (number : Nat) (raw : List Char) (raws : List (List Char)) :
    significant number (raw :: raws) =
      ((contentOf? raw).map (⟨number, ·⟩)).toList ++ significant (number + 1) raws := by
  rw [significant, contentOf?]
  split_ifs <;> rfl

theorem mem_significant_iff : line ∈ significant number raws ↔
    ∃ i, line.number = number + i ∧ contentOf? (raws.getD i []) = some line.content := by
  induction raws generalizing number with
  | nil => simp [significant, contentOf?_nil]
  | cons raw raws ih =>
    rw [significant_cons, List.mem_append, ih, Option.mem_toList, Option.map_eq_some_iff]
    constructor
    · rintro (⟨content, hcontent, rfl⟩ | ⟨i, hnumber, hcontent⟩)
      · exact ⟨0, rfl, hcontent⟩
      · exact ⟨i + 1, by omega, hcontent⟩
    · rintro ⟨- | i, hnumber, hcontent⟩
      · exact .inl ⟨line.content, hcontent, by cases line; cases hnumber; rfl⟩
      · exact .inr ⟨i, by omega, hcontent⟩

theorem pairwise_significant (number : Nat) (raws : List (List Char)) :
    (significant number raws).Pairwise (·.number < ·.number) := by
  induction raws generalizing number with
  | nil => exact .nil
  | cons raw raws ih =>
    rw [significant_cons]
    cases contentOf? raw with
    | none => exact ih (number + 1)
    | some content =>
      refine List.pairwise_cons.mpr ⟨fun line hl => ?_, ih (number + 1)⟩
      obtain ⟨i, hnumber, -⟩ := mem_significant_iff.mp hl
      simp only
      omega

theorem mem_tail_iff {lines : List NumberedLine} (h : lines.Pairwise (·.number < ·.number)) :
    line ∈ lines.tail ↔ line ∈ lines ∧ ∃ above ∈ lines, above.number < line.number := by
  cases lines with
  | nil => simp
  | cons first rest =>
    have hfirst := (List.pairwise_cons.mp h).1
    constructor
    · intro hl
      exact ⟨List.mem_cons_of_mem _ hl, first, List.mem_cons_self, hfirst line hl⟩
    · rintro ⟨hl, above, habove, hlt⟩
      rcases List.mem_cons.mp hl with rfl | hl
      · rcases List.mem_cons.mp habove with rfl | habove
        · omega
        · have := hfirst above habove
          omega
      · exact hl

/-- Lines that become blank are left out, and the others keep their numbers. What lies behind the
last line counts as blank. -/
theorem significant_filter {keep : NumberedLine → Bool} {others : List (List Char)}
    (h : ∀ i content, contentOf? (others.getD i []) = some content ↔
      contentOf? (raws.getD i []) = some content ∧ keep ⟨number + i, content⟩ = true) :
    significant number others = (significant number raws).filter keep := by
  have hirrefl : Std.Irrefl fun a b : NumberedLine => a.number < b.number :=
    ⟨fun a => Nat.lt_irrefl a.number⟩
  have hantisymm : Std.Antisymm fun a b : NumberedLine => a.number < b.number :=
    ⟨fun _ _ hab hba => absurd hab (Nat.lt_asymm hba)⟩
  refine List.Pairwise.eq_of_mem_iff (pairwise_significant number others)
    ((pairwise_significant number raws).filter _) fun line => ?_
  rw [List.mem_filter, mem_significant_iff, mem_significant_iff]
  constructor
  · rintro ⟨i, hnumber, hcontent⟩
    obtain ⟨hraw, hkeep⟩ := (h i line.content).mp hcontent
    rw [← hnumber] at hkeep
    exact ⟨⟨i, hnumber, hraw⟩, hkeep⟩
  · rintro ⟨⟨i, hnumber, hraw⟩, hkeep⟩
    refine ⟨i, hnumber, (h i line.content).mpr ⟨hraw, ?_⟩⟩
    rw [← hnumber]
    exact hkeep

end NumberedLine

def Issue.Warns (issue : Issue) (number : Nat) (message : String) : Prop :=
  issue.severity = .warning ∧ issue.line? = some number ∧ issue.message = message

namespace Diagram

open NumberedLine

theorem flatMap_filter {α β : Type} {keep : α → Bool} {f : α → List β}
    (h : ∀ a, keep a = false → f a = []) (l : List α) : (l.filter keep).flatMap f = l.flatMap f := by
  induction l with
  | nil => rfl
  | cons a l ih =>
    cases ha : keep a with
    | true => rw [List.filter_cons_of_pos ha, List.flatMap_cons, List.flatMap_cons, ih]
    | false =>
      rw [List.filter_cons_of_neg (by simp [ha]), List.flatMap_cons, h a ha, ih]
      rfl

/-- The line of a text at a place counted from zero, empty where there is none. -/
def lineAt (text : String) (i : Nat) : List Char :=
  (lines text.toList).getD i []

/-- The lines of a text below its header that say anything. -/
def bodyLines (text : String) : List NumberedLine :=
  body (NumberedLine.ofText text.toList).tail

def bodyStatements (text : String) : List Statement :=
  (bodyLines text).map fun line => Statement.ofLine line.content

variable {text : String} {line : NumberedLine}

theorem bodyStatements_eq (text : String) :
    (bodyLines text).map (fun line => Statement.ofLine line.content) = bodyStatements text :=
  rfl

theorem flatMap_bodyStatements {α : Type} (f : Statement → List α) :
    (bodyStatements text).flatMap f =
      (bodyLines text).flatMap fun line => f (.ofLine line.content) := by
  rw [bodyStatements, List.flatMap_map]

theorem filterMap_bodyStatements {α : Type} (f : Statement → Option α) :
    (bodyStatements text).filterMap f =
      (bodyLines text).flatMap fun line => (f (.ofLine line.content)).toList := by
  rw [List.filterMap_eq_flatMap_toList, flatMap_bodyStatements]

theorem mem_ofText_iff : line ∈ NumberedLine.ofText text.toList ↔
    ∃ i, line.number = i + 1 ∧ contentOf? (lineAt text i) = some line.content := by
  rw [NumberedLine.ofText, mem_significant_iff]
  simp only [lineAt, Nat.add_comm 1]

/-- The line is significant, says something, and another significant line stands above it. -/
def IsBodyLine (text : String) (line : NumberedLine) : Prop :=
  ∃ i, line.number = i + 1 ∧ contentOf? (lineAt text i) = some line.content ∧ line.content ≠ [] ∧
    ∃ j < i, (contentOf? (lineAt text j)).isSome

theorem pairwise_ofText (text : String) :
    (NumberedLine.ofText text.toList).Pairwise (·.number < ·.number) :=
  pairwise_significant 1 (lines text.toList)

theorem mem_bodyLines_iff : line ∈ bodyLines text ↔ IsBodyLine text line := by
  rw [bodyLines, body, List.mem_filter, mem_tail_iff (pairwise_ofText text), mem_ofText_iff]
  constructor
  · rintro ⟨⟨⟨i, hnumber, hcontent⟩, above, habove, hlt⟩, hne⟩
    obtain ⟨j, hj, hsome⟩ := mem_ofText_iff.mp habove
    exact ⟨i, hnumber, hcontent, by simpa using hne, j, by omega, by simp [hsome]⟩
  · rintro ⟨i, hnumber, hcontent, hne, j, hj, hsome⟩
    obtain ⟨content, habove⟩ := Option.isSome_iff_exists.mp hsome
    refine ⟨⟨⟨i, hnumber, hcontent⟩, ⟨j + 1, content⟩, mem_ofText_iff.mpr ⟨j, rfl, habove⟩, ?_⟩, ?_⟩
    · simp only
      omega
    · simpa using hne

theorem pairwise_bodyLines (text : String) :
    (bodyLines text).Pairwise (·.number < ·.number) :=
  ((pairwise_ofText text).sublist (List.tail_sublist _)).filter _

section Read

/-- The reading with places for its nodes where places are asked for. -/
def Reading.arrangedIf (placed : Bool) (reading : Reading) : Reading :=
  if placed then reading.arranged else reading

variable {placed : Bool} {reading bare : Reading}

theorem readWith_eq_map (placed : Bool) (text : String) :
    readWith placed text =
      (readChars text.toList).map fun outcome => outcome.map (Reading.arrangedIf placed) := by
  cases placed with
  | true => rfl
  | false =>
    rw [readWith, if_neg (by simp), Diagram.read]
    cases readChars text.toList with
    | error e => rfl
    | ok outcome => cases outcome <;> rfl

theorem readWith_eq_reading_iff : readWith placed text = .ok (.ok reading) ↔
    ∃ (header : NumberedLine) (kind : DiagramKind),
      (NumberedLine.ofText text.toList).head? = some header ∧
        Header.kind? header.content = some kind ∧ kind.isFlow = true ∧
          error? (bodyLines text) = none ∧
            (((bodyLines text).foldl Draft.add .empty).finish kind
              (Header.direction header.content)).arrangedIf placed = reading := by
  have hbare : readWith placed text = .ok (.ok reading) ↔
      ∃ bare, readChars text.toList = .ok (.ok bare) ∧ bare.arrangedIf placed = reading := by
    rw [readWith_eq_map]
    cases readChars text.toList with
    | error e => simp [Except.map]
    | ok outcome => cases outcome <;> simp [Except.map]
  simp only [hbare, readChars_eq_reading_iff, bodyLines]
  cases NumberedLine.ofText text.toList with
  | nil => simp
  | cons header rest => simp [and_assoc]

theorem exists_finish_of_readWith (h : readWith placed text = .ok (.ok reading)) :
    ∃ kind direction, (((bodyLines text).foldl Draft.add .empty).finish kind direction).arrangedIf
      placed = reading := by
  obtain ⟨header, kind, -, -, -, -, hreading⟩ := readWith_eq_reading_iff.mp h
  exact ⟨kind, _, hreading⟩

theorem issues_arrangedIf : (bare.arrangedIf placed).issues = bare.issues := by
  cases placed <;> rfl

theorem document_arrangedIf_congr {other : Reading} (h : bare.document = other.document) :
    (bare.arrangedIf placed).document = (other.arrangedIf placed).document := by
  cases placed with
  | true =>
    unfold Reading.arrangedIf Reading.arranged
    simp only [if_true, h]
  | false => exact h

theorem edges_arrangedIf : (bare.arrangedIf placed).document.edges = bare.document.edges := by
  cases placed <;> rfl

theorem keys_arrangedIf :
    (bare.arrangedIf placed).document.nodes.keys = bare.document.nodes.keys := by
  cases placed with
  | true => exact Keyed.keys_mapValues _ _
  | false => rfl

theorem exists_node?_of_arrangedIf {id : String} {node : Node}
    (h : (bare.arrangedIf placed).document.node? id = some node) :
    ∃ old, bare.document.node? id = some old ∧ node = { old with position := node.position } := by
  cases placed with
  | true =>
    obtain ⟨old, hold, rfl⟩ := Option.map_eq_some_iff.mp
      ((Keyed.find?_mapValues _ bare.document.nodes id).symm.trans h)
    exact ⟨old, hold, rfl⟩
  | false => exact ⟨node, h, rfl⟩

/-- A node that is read is what the last description and the style lines for its id make of the
stand-in, and perhaps has a place. -/
theorem eq_of_node?_readWith (h : readWith placed text = .ok (.ok reading)) {id : String}
    {node : Node} (hn : reading.document.node? id = some node) :
    node = { (((bodyStatements text).filterMap Statement.nodeStyle?).filter
        (String.ofList ·.id = id)).foldl (fun node style => Draft.styled style node)
          (Draft.describedAs (Draft.lastDescription
            (((bodyStatements text).flatMap Statement.refs).filter (String.ofList ·.id = id)))
              (.stub id)) with position := node.position } := by
  obtain ⟨kind, direction, rfl⟩ := exists_finish_of_readWith h
  obtain ⟨old, hold, hnode⟩ := exists_node?_of_arrangedIf hn
  have hfold := Draft.getD_find?_finish (bodyStatements_eq text) kind direction id
  rw [← Document.node?, hold, Option.getD_some] at hfold
  rw [← hfold]
  exact hnode

/-- Skipped lines are reported first, then the positions at which there is no edge. -/
theorem issues_of_readWith (h : readWith placed text = .ok (.ok reading)) :
    reading.issues = (bodyLines text).filterMap Draft.skipIssue? ++
      (bodyLines text).flatMap (Draft.rangeIssues reading.document.edges.length) := by
  obtain ⟨kind, direction, rfl⟩ := exists_finish_of_readWith h
  have hedges := congrArg List.length (Draft.map_edges_finish (f := fun _ => ()) (g := fun _ => ())
    (bodyStatements_eq text) kind direction (fun _ _ => rfl) (fun _ _ => rfl))
  rw [List.length_map, List.length_map] at hedges
  rw [issues_arrangedIf, edges_arrangedIf, hedges]
  exact Draft.issues_finish_eq (bodyStatements_eq text) kind direction

end Read

end Diagram
end Flowchart
