import Flowchart.Proofs.Diagram.Draft
import Flowchart.Proofs.Text.Lines
import Flowchart.Proofs.Text.Trim

/-! The contents of the significant lines decide what a text is read as; their numbers only occur in
what is reported. -/
namespace Flowchart

open Text

namespace NumberedLine

variable {s : List Char}

def contentOf? (raw : List Char) : Option (List Char) :=
  if Header.isSignificant (trim raw) then some (dropSemicolons (trim raw)) else none

theorem contents_significant (number : Nat) (raws : List (List Char)) :
    (significant number raws).map (·.content) = raws.filterMap contentOf? := by
  induction raws generalizing number with
  | nil => rfl
  | cons raw raws ih =>
    by_cases h : Header.isSignificant (trim raw) = true <;> simp [significant, contentOf?, h, ih]

theorem contents_ofText (text : List Char) :
    (ofText text).map (·.content) = (lines text).filterMap contentOf? :=
  contents_significant 1 (lines text)

theorem oneLine_of_mem_contents {text content : List Char}
    (h : content ∈ (ofText text).map (·.content)) : OneLine content := by
  rw [contents_ofText] at h
  obtain ⟨raw, hraw, hc⟩ := List.mem_filterMap.mp h
  unfold contentOf? at hc
  split_ifs at hc
  cases hc
  have h₁ := dropEndWhile_isPrefix isBlank (dropEndWhile (· == ';') (trim raw))
  have h₂ := dropEndWhile_isPrefix (· == ';') (trim raw)
  have hsub := ((h₁.trans h₂).isInfix.trans (trim_isInfix raw)).subset
  exact (oneLine_of_mem_lines hraw).subset hsub

theorem contentOf?_blanks_append {b : List Char} {c : Char} (hb : ∀ c ∈ b, isBlank c = true)
    (hc : isBlank c = false) (hp : c ≠ '%') (hl : ∀ d ∈ (c :: s).getLast?, isBlank d = false) :
    contentOf? (b ++ c :: s) = some (dropSemicolons (c :: s)) := by
  have htrim : trim (b ++ c :: s) = c :: s := by
    rw [trim_blanks_append hb, trim_eq_self (fun d hd => ?_) hl]
    obtain rfl : c = d := by simpa using hd
    exact hc
  have hsig : Header.isSignificant (c :: s) = true := by
    unfold Header.isSignificant
    split
    · contradiction
    · next heq =>
      cases heq
      exact absurd rfl hp
    · rfl
  rw [contentOf?, htrim, if_pos hsig]

theorem dropSemicolons_eq_self (h : ∀ c ∈ s.getLast?, isBlank c = false ∧ c ≠ ';') :
    dropSemicolons s = s := by
  have hs : dropEndWhile (· == ';') s = s :=
    dropEndWhile_eq_self fun c hc => by simpa using (h c hc).2
  rw [dropSemicolons, hs, dropEndWhile_eq_self fun c hc => (h c hc).1]

end NumberedLine

namespace Diagram

open NumberedLine

variable {text header : List Char} {contents : List (List Char)} {kind : DiagramKind}

/-- Below the header of a flow diagram, only the statements decide what becomes of the reading. -/
theorem readChars_of_header (hlines : (lines text).filterMap contentOf? = header :: contents)
    (hkind : Header.kind? header = some kind) (hflow : kind.isFlow = true) :
    ∃ rest : List NumberedLine, rest.map (·.content) = contents ∧
      readChars text = (readBody kind (Header.direction header) (body rest)).map .ok := by
  rw [← contents_ofText] at hlines
  cases htext : NumberedLine.ofText text with
  | nil => simp [htext] at hlines
  | cons first rest =>
    rw [htext, List.map_cons, List.cons.injEq] at hlines
    obtain ⟨hfirst, hrest⟩ := hlines
    refine ⟨rest, hrest, ?_⟩
    simp [readChars, htext, hfirst, hkind, hflow]

/-- Where no statement breaks the reading off, a text of a flow diagram is read as the statements of
its lines add up. -/
theorem readChars_of_contents (hlines : (lines text).filterMap contentOf? = header :: contents)
    (hkind : Header.kind? header = some kind) (hflow : kind.isFlow = true)
    (hne : ∀ content ∈ contents, content ≠ [])
    (herr : ∀ content ∈ contents, (Statement.ofLine content).error? = none) :
    ∃ lines : List NumberedLine, lines.map (·.content) = contents ∧
      readChars text =
        .ok (.ok ((lines.foldl Draft.add .empty).finish kind (Header.direction header))) := by
  obtain ⟨rest, hrest, hread⟩ := readChars_of_header hlines hkind hflow
  have hmem : ∀ line ∈ rest, line.content ∈ contents := by
    intro line hl
    rw [← hrest]
    exact List.mem_map_of_mem hl
  have hbody : body rest = rest := by
    rw [body, List.filter_eq_self]
    intro line hl
    simpa using hne _ (hmem line hl)
  have hnone : error? rest = none := by
    rw [error?, List.findSome?_eq_none_iff]
    exact fun line hl => herr _ (hmem line hl)
  refine ⟨rest, hrest, ?_⟩
  simp [hread, hbody, readBody, hnone, Except.map]

/-- A text is read if its header names a flow diagram and no line below breaks the reading off. -/
theorem readChars_eq_reading_iff {reading : Reading} : readChars text = .ok (.ok reading) ↔
    ∃ (header : NumberedLine) (rest : List NumberedLine) (kind : DiagramKind),
      NumberedLine.ofText text = header :: rest ∧ Header.kind? header.content = some kind ∧
        kind.isFlow = true ∧ error? (body rest) = none ∧
          ((body rest).foldl Draft.add .empty).finish kind (Header.direction header.content) =
            reading := by
  unfold readChars
  cases htext : NumberedLine.ofText text with
  | nil => simp
  | cons header rest =>
    cases hkind : Header.kind? header.content with
    | none => simp [hkind]
    | some kind =>
      cases hflow : kind.isFlow with
      | false => simp [hkind, hflow]
      | true => cases herr : error? (body rest) <;> simp [hkind, hflow, readBody, herr, Except.map]

/-- Whatever is read adds up from lines without line breaks, none of which breaks the reading off.
-/
theorem exists_lines_of_readChars {reading : Reading} (h : readChars text = .ok (.ok reading)) :
    ∃ (lines : List NumberedLine) (kind : DiagramKind) (direction : Direction),
      kind.isFlow = true ∧
      (∀ line ∈ lines, OneLine line.content ∧ (Statement.ofLine line.content).error? = none) ∧
      reading = (lines.foldl Draft.add .empty).finish kind direction := by
  obtain ⟨header, rest, kind, htext, -, hflow, herr, hreading⟩ := readChars_eq_reading_iff.mp h
  refine ⟨body rest, kind, Header.direction header.content, hflow, fun line hl => ?_, hreading.symm⟩
  constructor
  · have hrest : line ∈ rest := (List.mem_filter.mp hl).1
    have hmem : line.content ∈ (ofText text).map (·.content) :=
      List.mem_map_of_mem (htext ▸ List.mem_cons_of_mem _ hrest)
    exact oneLine_of_mem_contents hmem
  · exact List.findSome?_eq_none_iff.mp herr line hl

/-- A line below the header of a flow diagram names a position that is not read. -/
def BreaksOff (text : String) : Prop :=
  ∃ (header : NumberedLine) (rest : List NumberedLine) (kind : DiagramKind),
    NumberedLine.ofText text.toList = header :: rest ∧ Header.kind? header.content = some kind ∧
      kind.isFlow = true ∧ ∃ line ∈ body rest, ∃ e, Statement.ofLine line.content = .broken e

section Arranged

variable {text : String}

theorem readArranged_eq_ok_iff {placed : Outcome} : readArranged text = .ok placed ↔
    ∃ outcome, readChars text.toList = .ok outcome ∧ outcome.map Reading.arranged = placed := by
  rw [readArranged, Diagram.read]
  cases readChars text.toList <;> simp [Except.map]

theorem readArranged_eq_reading_iff {placed : Reading} : readArranged text = .ok (.ok placed) ↔
    ∃ reading, readChars text.toList = .ok (.ok reading) ∧ reading.arranged = placed := by
  rw [readArranged_eq_ok_iff]
  constructor
  · rintro ⟨outcome, hread, harranged⟩
    cases outcome with
    | error e => cases harranged
    | ok reading =>
      cases harranged
      exact ⟨reading, hread, rfl⟩
  · rintro ⟨reading, hread, rfl⟩
    exact ⟨.ok reading, hread, rfl⟩

theorem error?_eq_none_iff {lines : List NumberedLine} : error? lines = none ↔
    ∀ line ∈ lines, ∀ e, Statement.ofLine line.content ≠ .broken e := by
  rw [error?, List.findSome?_eq_none_iff]
  refine forall₂_congr fun line _ => ?_
  cases Statement.ofLine line.content <;> simp [Statement.error?]

theorem exists_outcome_iff : (∃ outcome, readArranged text = .ok outcome) ↔ ¬BreaksOff text := by
  have hbare : (∃ outcome, readArranged text = .ok outcome) ↔
      ∃ outcome, readChars text.toList = .ok outcome := by
    rw [readArranged, Diagram.read]
    cases readChars text.toList <;> simp [Except.map]
  rw [hbare]
  unfold readChars BreaksOff
  cases NumberedLine.ofText text.toList with
  | nil => simp
  | cons header rest =>
    cases hkind : Header.kind? header.content with
    | none => simp [hkind]
    | some kind =>
      by_cases hflow : kind.isFlow = true
      · cases herr : error? (body rest) with
        | none =>
          have hsound := error?_eq_none_iff.mp herr
          simpa [hkind, hflow, readBody, herr, Except.map] using hsound
        | some e =>
          have hbroken : ∃ line ∈ body rest, ∃ e, Statement.ofLine line.content = .broken e := by
            by_contra hno
            push Not at hno
            rw [error?_eq_none_iff.mpr hno] at herr
            cases herr
          simp [hkind, hflow, readBody, herr, Except.map, hbroken]
      · simp [hkind, hflow]

theorem breaksOff_iff : BreaksOff text ↔ ∃ e, readArranged text = .error e := by
  rw [← not_iff_not, ← exists_outcome_iff]
  cases readArranged text <;> simp

end Arranged

end Diagram
end Flowchart
