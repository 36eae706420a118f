import Flowchart.Proofs.Grammar.NodeRef

/-! Delimiters are found again exactly as they were put around a label. An earlier shape takes a label
over where its delimiters are those of the shape with one more character on each side, and the label
has these two characters at its ends. -/
namespace Flowchart.NodeShape

variable {shape other : NodeShape} {s label : List Char}

def earlier (shape : NodeShape) : List NodeShape :=
  byPriority.takeWhile (· ≠ shape)

def takenEnds : NodeShape → List (Char × Char)
  | diamond => [('\x7b', '\x7d')]
  | rounded => [('(', ')'), ('[', ']')]
  | rectangle => [('(', ')'), ('[', ']'), ('/', '/')]
  | _ => []

def HasEnds (ends : Char × Char) (label : List Char) : Prop :=
  3 ≤ label.length ∧ label.head? = some ends.1 ∧ label.getLast? = some ends.2

instance (ends : Char × Char) (label : List Char) : Decidable (HasEnds ends label) :=
  inferInstanceAs (Decidable (_ ∧ _))

theorem hasEnds_iff {ends : Char × Char} :
    HasEnds ends label ↔ ∃ inner, inner ≠ [] ∧ label = ends.1 :: inner ++ [ends.2] := by
  constructor
  · rintro ⟨hlength, hhead, hlast⟩
    obtain ⟨rest, rfl⟩ := List.head?_eq_some_iff.mp hhead
    have hrest : rest ≠ [] := by
      rintro rfl
      simp at hlength
    rw [List.getLast?_cons_of_ne_nil hrest] at hlast
    obtain ⟨inner, rfl⟩ := List.getLast?_eq_some_iff.mp hlast
    refine ⟨inner, ?_, rfl⟩
    rintro rfl
    simp at hlength
  · rintro ⟨inner, hne, rfl⟩
    have hpos : 0 < inner.length := List.length_pos_iff.mpr hne
    refine ⟨?_, rfl, ?_⟩
    · simp only [List.length_append, List.length_cons, List.length_nil]
      omega
    · exact List.getLast?_concat

section Priority

theorem match?_eq_some_iff (hs : '\n' ∉ s) : match? s = some (shape, label) ↔
    shape.unwrap? s = some label ∧ ∀ other ∈ shape.earlier, other.unwrap? s = none := by
  have hdrop : dropFinalLineFeed s = s :=
    dropFinalLineFeed_eq_self fun c hc h => hs (h ▸ List.mem_of_getLast? hc)
  obtain ⟨later, hsplit, hself⟩ :
      ∃ later, byPriority = shape.earlier ++ shape :: later ∧ shape ∉ shape.earlier := by
    cases shape
    all_goals exact ⟨_, rfl, by decide⟩
  rw [match?, hdrop]
  constructor
  · intro h
    obtain ⟨before, found, after, horder, hfound, hbefore⟩ := List.findSome?_eq_some_iff.mp h
    obtain ⟨l, hl, he⟩ := Option.map_eq_some_iff.mp hfound
    cases he
    have hnot : shape ∉ before := by
      intro hmem
      have hnone := hbefore shape hmem
      simp [hl] at hnone
    have hsame : before = shape.earlier := by
      rw [earlier, horder, List.takeWhile_append_of_pos fun o ho => ?_]
      · simp
      · exact decide_eq_true fun heq => hnot (heq ▸ ho)
    refine ⟨hl, fun o ho => ?_⟩
    rw [← hsame] at ho
    simpa using hbefore o ho
  · rintro ⟨hfound, hnone⟩
    refine List.findSome?_eq_some_iff.mpr ⟨shape.earlier, shape, later, hsplit, ?_, fun o ho => ?_⟩
    · rw [hfound, Option.map_some]
    · rw [hnone o ho, Option.map_none]

end Priority

section Taken

private theorem delimiters_of_mem_earlier (h : other ∈ shape.earlier) :
    (∃ ends ∈ shape.takenEnds, other.opening = shape.opening ++ [ends.1] ∧
      other.closing = ends.2 :: shape.closing) ∨
    (¬other.opening <+: shape.opening ∧ ¬shape.opening <+: other.opening) := by
  revert other
  cases shape <;> decide

private theorem exists_earlier_of_mem_takenEnds {ends : Char × Char} (h : ends ∈ shape.takenEnds) :
    ∃ other ∈ shape.earlier, other.opening = shape.opening ++ [ends.1] ∧
      other.closing = ends.2 :: shape.closing := by
  revert ends
  cases shape <;> decide

theorem wrap_eq_wrap_iff {ends : Char × Char} {inner : List Char}
    (hopening : other.opening = shape.opening ++ [ends.1])
    (hclosing : other.closing = ends.2 :: shape.closing) :
    shape.wrap label = other.wrap inner ↔ label = ends.1 :: inner ++ [ends.2] := by
  have hother : other.wrap inner = shape.wrap (ends.1 :: inner ++ [ends.2]) := by
    simp [wrap, hopening, hclosing]
  rw [hother]
  simp only [wrap, List.append_cancel_right_eq, List.append_cancel_left_eq]

/-- Of all earlier shapes, those with longer delimiters take labels over, and no others. -/
theorem exists_earlier_wrap_iff :
    (∃ other ∈ shape.earlier, ∃ inner, inner ≠ [] ∧ shape.wrap label = other.wrap inner) ↔
      ∃ ends ∈ shape.takenEnds, HasEnds ends label := by
  simp only [hasEnds_iff]
  constructor
  · rintro ⟨other, hother, inner, hne, hwrap⟩
    rcases delimiters_of_mem_earlier hother with ⟨ends, hends, hopening, hclosing⟩ | ⟨hno, hnot⟩
    · exact ⟨ends, hends, inner, hne, (wrap_eq_wrap_iff hopening hclosing).mp hwrap⟩
    · have hfirst : shape.opening <+: shape.wrap label :=
        ⟨label ++ shape.closing, (List.append_assoc _ _ _).symm⟩
      have hsecond : other.opening <+: shape.wrap label :=
        ⟨inner ++ other.closing, by rw [hwrap, wrap, List.append_assoc]⟩
      rcases List.prefix_or_prefix_of_prefix hfirst hsecond with h | h
      · exact absurd h hnot
      · exact absurd h hno
  · rintro ⟨ends, hends, inner, hne, hlabel⟩
    obtain ⟨other, hother, hopening, hclosing⟩ := exists_earlier_of_mem_takenEnds hends
    exact ⟨other, hother, inner, hne, (wrap_eq_wrap_iff hopening hclosing).mpr hlabel⟩

private theorem lineFeed_mem_wrap : '\n' ∈ shape.wrap label ↔ '\n' ∈ label := by
  have hopening : '\n' ∉ shape.opening := fun h => absurd (shape.opening_chars _ h).1 (by decide)
  have hclosing : '\n' ∉ shape.closing := fun h => absurd (shape.closing_chars _ h).1 (by decide)
  simp [wrap, hopening, hclosing]

theorem keeps_iff : shape.keeps label = true ↔
    label ≠ [] ∧ '\n' ∉ label ∧ ∀ ends ∈ shape.takenEnds, ¬HasEnds ends label := by
  by_cases hfeed : '\n' ∈ label
  · simp [keeps, hfeed]
  have hwrap : '\n' ∉ shape.wrap label := fun h => hfeed (lineFeed_mem_wrap.mp h)
  have hearlier : (∀ other ∈ shape.earlier, other.unwrap? (shape.wrap label) = none) ↔
      ∀ ends ∈ shape.takenEnds, ¬HasEnds ends label := by
    rw [← not_iff_not]
    push Not
    rw [← exists_earlier_wrap_iff]
    refine exists_congr fun other => and_congr_right fun _ => ?_
    rw [Option.ne_none_iff_exists']
    refine exists_congr fun inner => ?_
    rw [unwrap?_eq_some_iff]
    constructor
    · rintro ⟨heq, hne, -⟩
      exact ⟨hne, heq⟩
    · rintro ⟨hne, heq⟩
      exact ⟨heq, hne, fun h => hwrap (heq ▸ lineFeed_mem_wrap.mpr h)⟩
  have hself : shape.unwrap? (shape.wrap label) = some label ↔ label ≠ [] := by
    simp [unwrap?_eq_some_iff, hfeed]
  rw [← hearlier, ← hself]
  simp [keeps, hfeed, match?_eq_some_iff hwrap]

theorem keeps_rectangle_of_isIdentifier {id : List Char}
    (h : Identifier.isIdentifier id = true) : rectangle.keeps id = true := by
  have hends : ∀ ends ∈ rectangle.takenEnds, Identifier.isPart ends.1 = false := by decide
  refine keeps_iff.mpr ⟨?_, fun hfeed => ?_, fun ends htaken hlabel => ?_⟩
  · rintro rfl
    cases h
  · exact Identifier.ne_of_isPart (Identifier.isPart_of_mem h hfeed) (by decide) rfl
  · have hmem : ends.1 ∈ id := List.mem_of_mem_head? hlabel.2.1
    exact Identifier.ne_of_isPart (Identifier.isPart_of_mem h hmem) (hends ends htaken) rfl

end Taken

/-- A text is a label in the delimiters of a shape exactly if it is what they make of a label that they
keep. These are the labels that no earlier shape takes over; seven shapes lose none. -/
theorem match?_iff_wrap (shape : NodeShape) (label : List Char) :
    (∀ s, '\n' ∉ s →
      (match? s = some (shape, label) ↔ s = shape.wrap label ∧ shape.keeps label = true)) ∧
    (shape.keeps label = true ↔
      label ≠ [] ∧ '\n' ∉ label ∧ ∀ ends ∈ shape.takenEnds, ¬HasEnds ends label) ∧
    (shape ∉ [diamond, rounded, rectangle] →
      (shape.keeps label = true ↔ label ≠ [] ∧ '\n' ∉ label)) := by
  refine ⟨fun s hs => ⟨fun h => ?_, ?_⟩, keeps_iff, fun h => ?_⟩
  · have hlast : ∀ c ∈ s.getLast?, c ≠ '\n' := fun c hc hn => hs (hn ▸ List.mem_of_getLast? hc)
    have hwrap := (match?_sound h).1
    rw [dropFinalLineFeed_eq_self hlast] at hwrap
    exact ⟨hwrap, keeps_of_match? hlast h⟩
  · rintro ⟨rfl, hkeeps⟩
    exact match?_wrap hkeeps
  · have hnone : shape.takenEnds = [] := by
      revert h
      cases shape <;> decide
    simp [keeps_iff, hnone]

/-- Of a rounded label in square brackets the earlier stadium is read, unless nothing stands between
the brackets; a stadium loses no such label. -/
theorem match?_wrap_bracketLabel :
    match? (rounded.wrap "[x]".toList) = some (stadium, "x".toList) ∧
      rounded.keeps "[x]".toList = false ∧
      match? (rounded.wrap "[]".toList) = some (rounded, "[]".toList) ∧
      match? (stadium.wrap "[x]".toList) = some (stadium, "[x]".toList) := by
  have hbracket : HasEnds ('[', ']') "[x]".toList := by decide
  have hlost : ¬rounded.keeps "[x]".toList = true := by
    intro h
    exact ((match?_iff_wrap rounded _).2.1.mp h).2.2 _ (by decide) hbracket
  have hempty : rounded.keeps "[]".toList = true :=
    (match?_iff_wrap rounded _).2.1.mpr ⟨by decide, by decide, by decide⟩
  have hstadium : stadium.keeps "[x]".toList = true :=
    ((match?_iff_wrap stadium _).2.2 (by decide)).mpr ⟨by decide, by decide⟩
  refine ⟨by decide, by simpa using hlost, ?_, ?_⟩
  · exact ((match?_iff_wrap rounded _).1 _ (by decide)).mpr ⟨rfl, hempty⟩
  · exact ((match?_iff_wrap stadium _).1 _ (by decide)).mpr ⟨rfl, hstadium⟩

end Flowchart.NodeShape
