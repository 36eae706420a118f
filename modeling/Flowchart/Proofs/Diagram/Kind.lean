import Flowchart.Proofs.Diagram.BodyLines
import Flowchart.Proofs.Grammar.Header

/-! The first significant line decides what a text is read as: nothing without one, a refusal if it
names no flow diagram, and otherwise a diagram of the kind and direction that it names, unless a line
below breaks the reading off. -/
namespace Flowchart

open Text

namespace NumberedLine

theorem exists_dropSemicolons_append (s : List Char) :
    ∃ e, s = dropSemicolons s ++ e ∧ ∀ c ∈ e, c = ';' ∨ isBlank c = true := by
  obtain ⟨marks, hs, hmarks⟩ := exists_dropEndWhile_append (· == ';') s
  obtain ⟨blanks, hdrop, hblanks⟩ :=
    exists_dropEndWhile_append isBlank (dropEndWhile (· == ';') s)
  refine ⟨blanks ++ marks, ?_, fun c hc => ?_⟩
  · rw [dropSemicolons, ← List.append_assoc, ← hdrop, ← hs]
  · rcases List.mem_append.mp hc with hc | hc
    · exact .inr (hblanks c hc)
    · exact .inl (beq_iff_eq.mp (hmarks c hc))

theorem kind?_dropSemicolons (s : List Char) : Header.kind? (dropSemicolons s) = Header.kind? s := by
  obtain ⟨e, hs, he⟩ := exists_dropSemicolons_append s
  conv_rhs => rw [hs]
  refine (Header.kind?_append fun c hc => ?_).symm
  rcases he c (List.mem_of_mem_head? hc) with rfl | hblank
  · decide
  · exact Header.isKindChar_eq_false_of_isBlank hblank

theorem direction_dropSemicolons (s : List Char) :
    Header.direction (dropSemicolons s) = Header.direction s := by
  obtain ⟨e, hs, he⟩ := exists_dropSemicolons_append s
  conv_rhs => rw [hs]
  refine (Header.direction_append fun c hc => ?_).symm
  rcases he c hc with rfl | hblank
  · decide +kernel
  · exact isWordChar_eq_false_of_isBlank hblank

theorem head?_contents (raws : List (List Char)) : (raws.filterMap contentOf?).head? =
    ((raws.map trim).find? Header.isSignificant).map dropSemicolons := by
  induction raws with
  | nil => rfl
  | cons raw raws ih =>
    cases hsig : Header.isSignificant (trim raw) with
    | true => simp [contentOf?, hsig]
    | false => simpa [contentOf?, hsig] using ih

end NumberedLine

namespace Diagram

open NumberedLine

variable {placed : Bool} {text : String} {line : List Char} {kind : DiagramKind}

/-- What a header without a kind of flow diagram is reported as: the kind that it names, or else the
line without the semicolons at its end. -/
def refusedName (line : List Char) : String :=
  ((Header.kind? line).map DiagramKind.name).getD (String.ofList (dropSemicolons line))

section Header

theorem ofText_of_noHeader (h : Header.find? text.toList = none) :
    NumberedLine.ofText text.toList = [] := by
  have hhead := head?_contents (lines text.toList)
  rw [← contents_ofText, List.head?_map, ← Header.find?, h] at hhead
  simpa using hhead

theorem ofText_of_header (h : Header.find? text.toList = some line) : ∃ header rest,
    NumberedLine.ofText text.toList = header :: rest ∧ header.content = dropSemicolons line := by
  have hhead := head?_contents (lines text.toList)
  rw [← contents_ofText, List.head?_map, ← Header.find?, h] at hhead
  obtain ⟨header, hheader, hcontent⟩ := Option.map_eq_some_iff.mp hhead
  obtain ⟨rest, hlines⟩ := List.head?_eq_some_iff.mp hheader
  exact ⟨header, rest, hlines, hcontent⟩

theorem readWith_of_noHeader (h : Header.find? text.toList = none) :
    readWith placed text = .ok (.error .empty) := by
  rw [readWith_eq_map, readChars, ofText_of_noHeader h]
  rfl

theorem readWith_of_noFlow (h : Header.find? text.toList = some line)
    (hkind : ∀ kind, Header.kind? line = some kind → kind.isFlow = false) :
    readWith placed text = .ok (.error (.unsupported (refusedName line))) := by
  obtain ⟨header, rest, hlines, hcontent⟩ := ofText_of_header h
  rw [readWith_eq_map, readChars, hlines]
  simp only [hcontent, kind?_dropSemicolons, refusedName]
  cases hnamed : Header.kind? line with
  | none => rfl
  | some kind => simp [hkind kind hnamed, Except.map]

theorem readWith_of_flow (h : Header.find? text.toList = some line)
    (hkind : Header.kind? line = some kind) (hflow : kind.isFlow = true) :
    readWith placed text =
      (readBody kind (Header.direction line) (bodyLines text)).map fun reading =>
        .ok (reading.arrangedIf placed) := by
  obtain ⟨header, rest, hlines, hcontent⟩ := ofText_of_header h
  rw [readWith_eq_map, readChars, bodyLines, hlines]
  simp only [hcontent, kind?_dropSemicolons, direction_dropSemicolons, hkind, hflow, if_true,
    List.tail_cons]
  cases readBody kind (Header.direction line) (body rest) <;> rfl

end Header

theorem kind_of_readBody (placed : Bool) {direction : Direction} {lines : List NumberedLine}
    {reading : Reading} (h : readBody kind direction lines = .ok reading) :
    (reading.arrangedIf placed).document.kind = kind ∧
      (reading.arrangedIf placed).document.direction = direction := by
  unfold readBody at h
  split at h
  · cases h
  · cases h
    cases placed <;> exact ⟨rfl, rfl⟩

/-- Whether places are asked for or not, only a line below the header breaks the reading off. -/
theorem exists_error_iff (placed : Bool) :
    (∃ e, readWith placed text = .error e) ↔ BreaksOff text := by
  have harranged : readArranged text = readWith true text := rfl
  rw [breaksOff_iff, harranged, readWith_eq_map, readWith_eq_map]
  cases readChars text.toList <;> simp [Except.map]

/-- The reading and the detection of the kind classify every text alike. It is empty exactly without a
significant line, refused exactly if this line names no flow diagram, and otherwise a diagram of the
kind and direction that the line names, exactly if no line below breaks the reading off. -/
theorem readWith_classified (placed : Bool) (text : String) :
    (readWith placed text = .ok (.error .empty) ↔ Header.find? text.toList = none) ∧
    (∀ named, readWith placed text = .ok (.error (.unsupported named)) ↔
      ∃ line, Header.find? text.toList = some line ∧
        (∀ kind, Header.detect? text.toList = some kind → kind.isFlow = false) ∧
        refusedName line = named) ∧
    ((∃ reading, readWith placed text = .ok (.ok reading)) ↔
      (∃ kind, Header.detect? text.toList = some kind ∧ kind.isFlow = true) ∧ ¬BreaksOff text) ∧
    ∀ reading, readWith placed text = .ok (.ok reading) →
      Header.detect? text.toList = some reading.document.kind ∧
      ∃ line, Header.find? text.toList = some line ∧
        reading.document.direction = Header.direction line := by
  rw [← exists_error_iff placed, Header.detect?]
  cases hline : Header.find? text.toList with
  | none => simp [readWith_of_noHeader hline]
  | some line =>
    rw [Option.bind_some]
    by_cases hkind : ∃ kind, Header.kind? line = some kind ∧ kind.isFlow = true
    · obtain ⟨kind, hnamed, hflow⟩ := hkind
      rw [readWith_of_flow hline hnamed hflow]
      cases hbody : readBody kind (Header.direction line) (bodyLines text) with
      | error e => simp [hnamed, hflow, Except.map]
      | ok reading =>
        obtain ⟨hkept, hdirection⟩ := kind_of_readBody placed hbody
        simp [hnamed, hflow, hkept, hdirection, Except.map]
    · have hnone : ∀ kind, Header.kind? line = some kind → kind.isFlow = false := by
        simpa using hkind
      simpa [readWith_of_noFlow hline hnone, hkind] using hnone

/-- A flowchart in which a separator that only looks like a blank stands before a position. -/
def separatedText : String :=
  "\n%% two\nFlowchart lr;;\nA --> B\nlinkStyle 0,\x1f0 stroke:red"

/-- The kind is detected, and yet nothing is read: the second position breaks the reading off. -/
theorem not_readWith_separatedText : Header.detect? separatedText.toList = some .flowchart ∧
    BreaksOff separatedText ∧ ¬∃ reading, readWith true separatedText = .ok (.ok reading) := by
  have hdetected : Header.detect? separatedText.toList = some .flowchart := by decide +kernel
  have hfails : (readWith true separatedText).toOption.isNone = true := by decide +kernel
  have hbroken : BreaksOff separatedText := by
    rw [← exists_error_iff true]
    cases hread : readWith true separatedText with
    | error e => exact ⟨e, rfl⟩
    | ok outcome =>
      rw [hread] at hfails
      cases hfails
  refine ⟨hdetected, hbroken, fun hread => ?_⟩
  exact ((readWith_classified true separatedText).2.2.1.mp hread).2 hbroken

end Diagram
end Flowchart
