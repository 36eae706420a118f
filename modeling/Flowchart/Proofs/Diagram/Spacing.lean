import Flowchart.Proofs.Diagram.BodyLines

/-! Blank lines, comments, indentation and the way lines end do not matter: what is read is the same,
and what is reported names the places where the lines now stand. -/
namespace Flowchart

open Text

namespace Text

variable {ls : List (List Char)} {lineEnd line other s t : List Char} {c : Char}

def lineEnds : List (List Char) := [['\n'], ['\r', '\n'], ['\r']]

def isPadding (c : Char) : Bool :=
  c == ' ' || c == '\t'

def unpadded (line : List Char) : List Char :=
  dropEndWhile isPadding (line.dropWhile isPadding)

/-- One line becomes the other where spaces and tabs are added or removed at its ends. -/
def Reindented (line other : List Char) : Prop :=
  unpadded line = unpadded other

instance (line other : List Char) : Decidable (Reindented line other) :=
  inferInstanceAs (Decidable (_ = _))

theorem isBlank_of_isPadding (h : isPadding c = true) : isBlank c = true := by
  rw [isPadding, Bool.or_eq_true, beq_iff_eq, beq_iff_eq] at h
  rcases h with rfl | rfl <;> decide

theorem trim_unpadded (line : List Char) : trim (unpadded line) = trim line := by
  obtain ⟨back, hback, hblank⟩ := exists_dropEndWhile_append isPadding (line.dropWhile isPadding)
  have hfront : ∀ c ∈ line.takeWhile isPadding, isBlank c = true :=
    fun c hc => isBlank_of_isPadding (List.mem_takeWhile_imp hc)
  calc trim (unpadded line)
    _ = trim (unpadded line ++ back) :=
      (trim_append_blanks fun c hc => isBlank_of_isPadding (hblank c hc)).symm
    _ = trim (line.dropWhile isPadding) := by rw [unpadded, ← hback]
    _ = trim (line.takeWhile isPadding ++ line.dropWhile isPadding) :=
      (trim_blanks_append hfront).symm
    _ = trim line := by rw [List.takeWhile_append_dropWhile]

theorem Reindented.trim_eq (h : Reindented line other) : trim line = trim other := by
  rw [← trim_unpadded line, h, trim_unpadded]

/-- A carriage return ends a line on its own unless a line feed follows. -/
theorem lines_append_lineEnd (hs : OneLine s) (hend : lineEnd ∈ lineEnds)
    (ht : lineEnd = ['\r'] → '\n' ∉ t) : lines (s ++ lineEnd ++ t) = s :: lines t := by
  induction s with
  | nil =>
    simp only [lineEnds, List.mem_cons, List.not_mem_nil, or_false] at hend
    rcases hend with rfl | rfl | rfl
    · exact lines_lineFeed t
    · rfl
    · cases t with
      | nil => rfl
      | cons d t =>
        have hd : d ≠ '\n' := fun h => ht rfl (h ▸ List.mem_cons_self)
        change lines ('\r' :: d :: t) = [] :: lines (d :: t)
        rw [lines]
        · rw [if_pos (by decide)]
        · simp [hd]
  | cons c s ih =>
    obtain ⟨hc, hs⟩ := oneLine_cons.mp hs
    rw [List.cons_append, List.cons_append, lines_cons hc, ih hs]
    rfl

end Text

namespace NumberedLine

variable {ls others : List (List Char)} {place : Nat → Nat} {lineEnd raw : List Char}

theorem significant_lines_joinWith (hend : lineEnd ∈ lineEnds) (h : ∀ l ∈ ls, OneLine l)
    (number : Nat) : significant number (lines (joinWith lineEnd ls)) = significant number ls := by
  induction ls generalizing number with
  | nil => rfl
  | cons l ls ih =>
    have hl : OneLine l := h l List.mem_cons_self
    have hls : ∀ m ∈ ls, OneLine m := fun m hm => h m (List.mem_cons_of_mem _ hm)
    cases ls with
    | nil =>
      by_cases hne : l = []
      · subst hne
        rfl
      · rw [joinWith, lines_oneLine hl hne]
    | cons m ls =>
      have hfeed : lineEnd = ['\r'] → '\n' ∉ joinWith lineEnd (m :: ls) := by
        rintro rfl hmem
        rcases mem_joinWith hmem with ⟨n, hn, hc⟩ | hc
        · exact absurd (hls n hn _ hc) (by decide)
        · exact absurd hc (by decide)
      rw [joinWith_cons_cons, lines_append_lineEnd hl hend hfeed, significant_cons,
        significant_cons, ih hls]

def IsIdle (line : List Char) : Prop :=
  trim line = [] ∨ ['%', '%'] <+: trim line

instance (line : List Char) : Decidable (IsIdle line) :=
  inferInstanceAs (Decidable (_ ∨ _))

theorem contentOf?_of_isIdle (h : IsIdle raw) : contentOf? raw = none := by
  rcases h with hblank | ⟨rest, hcomment⟩
  · simp [contentOf?, hblank, Header.isSignificant]
  · simp [contentOf?, ← hcomment, Header.isSignificant]

theorem contentOf?_reindented {other : List Char} (h : Reindented raw other) :
    contentOf? other = contentOf? raw := by
  rw [contentOf?, contentOf?, h.trim_eq]

/-- The second list of lines is the first with blank lines and comments inserted, and with spaces and
tabs added or removed at the ends of lines; each line of the first now stands at its place in the
second. Places are counted from zero. -/
structure SpacedOut (ls others : List (List Char)) (place : Nat → Nat) : Prop where
  mono : ∀ j < ls.length, ∀ i < j, place i < place j
  kept : ∀ i < ls.length, place i < others.length ∧
    Reindented (ls.getD i []) (others.getD (place i) [])
  inserted : ∀ j < others.length, (∀ i < ls.length, place i ≠ j) → IsIdle (others.getD j [])

instance (ls others : List (List Char)) (place : Nat → Nat) : Decidable (SpacedOut ls others place) :=
  decidable_of_iff (_ ∧ _ ∧ _) ⟨fun ⟨h₁, h₂, h₃⟩ => ⟨h₁, h₂, h₃⟩, fun ⟨h₁, h₂, h₃⟩ => ⟨h₁, h₂, h₃⟩⟩

def renumbered (f : Nat → Nat) (line : NumberedLine) : NumberedLine :=
  { line with number := f line.number }

def newNumber (place : Nat → Nat) (number : Nat) : Nat :=
  place (number - 1) + 1

theorem lt_length_of_contentOf? {i : Nat} {content : List Char}
    (h : contentOf? (ls.getD i []) = some content) : i < ls.length := by
  by_contra hge
  rw [List.getD_eq_getElem?_getD, List.getElem?_eq_none (by omega)] at h
  cases h

theorem SpacedOut.significant_eq (h : SpacedOut ls others place) :
    significant 1 others = (significant 1 ls).map (renumbered (newNumber place)) := by
  have hirrefl : Std.Irrefl fun a b : NumberedLine => a.number < b.number :=
    ⟨fun a => Nat.lt_irrefl a.number⟩
  have hantisymm : Std.Antisymm fun a b : NumberedLine => a.number < b.number :=
    ⟨fun _ _ hab hba => absurd hab (Nat.lt_asymm hba)⟩
  have hplaced : ((significant 1 ls).map (renumbered (newNumber place))).Pairwise
      (·.number < ·.number) := by
    rw [List.pairwise_map]
    refine (pairwise_significant 1 ls).imp_of_mem fun {a b} ha hb hlt => ?_
    obtain ⟨i, hi, -⟩ := mem_significant_iff.mp ha
    obtain ⟨j, hj, hcontent⟩ := mem_significant_iff.mp hb
    have hmono := h.mono j (lt_length_of_contentOf? hcontent) i (by omega)
    simp only [renumbered, newNumber, hi, hj, Nat.add_sub_cancel_left]
    omega
  refine List.Pairwise.eq_of_mem_iff (pairwise_significant 1 others) hplaced fun line => ?_
  rw [List.mem_map, mem_significant_iff]
  constructor
  · rintro ⟨j, hnumber, hcontent⟩
    by_cases hplace : ∃ i < ls.length, place i = j
    · obtain ⟨i, hi, rfl⟩ := hplace
      rw [contentOf?_reindented (h.kept i hi).2] at hcontent
      refine ⟨⟨1 + i, line.content⟩, mem_significant_iff.mpr ⟨i, rfl, hcontent⟩, ?_⟩
      cases line
      simp only [renumbered, newNumber, Nat.add_sub_cancel_left, mk.injEq, and_true]
      simp only at hnumber
      omega
    · have hidle := h.inserted j (lt_length_of_contentOf? hcontent) (by simpa using hplace)
      rw [contentOf?_of_isIdle hidle] at hcontent
      cases hcontent
  · rintro ⟨old, hold, rfl⟩
    obtain ⟨i, hnumber, hcontent⟩ := mem_significant_iff.mp hold
    have hkept := (h.kept i (lt_length_of_contentOf? hcontent)).2
    refine ⟨place i, ?_, ?_⟩
    · simp only [renumbered, newNumber, hnumber, Nat.add_sub_cancel_left]
      omega
    · rw [contentOf?_reindented hkept]
      exact hcontent

end NumberedLine

def Issue.renumbered (f : Nat → Nat) : Issue → Issue
  | skippedLine line reason text => skippedLine (f line) reason text
  | positionOutOfRange line position edgeCount => positionOutOfRange (f line) position edgeCount
  | issue => issue

namespace Diagram

open NumberedLine

def Reading.renumbered (f : Nat → Nat) (reading : Reading) : Reading :=
  { reading with issues := reading.issues.map (Issue.renumbered f) }

variable {f : Nat → Nat}

namespace Draft

def renumbered (f : Nat → Nat) (draft : Draft) : Draft :=
  { draft with
    edgeStyles := draft.edgeStyles.map fun (number, style) => (f number, style)
    issues := draft.issues.map (Issue.renumbered f) }

theorem add_renumbered (draft : Draft) (line : NumberedLine) :
    (draft.renumbered f).add (line.renumbered f) = (draft.add line).renumbered f := by
  unfold add renumbered NumberedLine.renumbered
  cases Statement.ofLine line.content <;> simp [Issue.renumbered]

theorem foldl_add_renumbered (lines : List NumberedLine) (draft : Draft) :
    (lines.map (NumberedLine.renumbered f)).foldl add (draft.renumbered f) =
      (lines.foldl add draft).renumbered f := by
  induction lines generalizing draft with
  | nil => rfl
  | cons line lines ih => rw [List.map_cons, List.foldl_cons, List.foldl_cons, add_renumbered, ih]

theorem finish_renumbered (draft : Draft) (kind : DiagramKind) (direction : Direction) :
    (draft.renumbered f).finish kind direction = (draft.finish kind direction).renumbered f := by
  have hstyles : (draft.renumbered f).edgeStyles.map (·.2) = draft.edgeStyles.map (·.2) := by
    simp [renumbered, Function.comp_def]
  have hissues : (draft.renumbered f).edgeStyles.flatMap (outOfRange draft.edges.length) =
      (draft.edgeStyles.flatMap (outOfRange draft.edges.length)).map (Issue.renumbered f) := by
    rw [renumbered, List.flatMap_map, List.map_flatMap]
    refine List.flatMap_congr fun line _ => ?_
    simp [outOfRange, Issue.renumbered]
  unfold finish Reading.renumbered
  rw [hstyles, List.map_append, ← hissues]
  rfl

end Draft

theorem readBody_renumbered (kind : DiagramKind) (direction : Direction)
    (lines : List NumberedLine) :
    readBody kind direction (lines.map (NumberedLine.renumbered f)) =
      (readBody kind direction lines).map (Reading.renumbered f) := by
  have herror : error? (lines.map (NumberedLine.renumbered f)) = error? lines := by
    rw [error?, List.findSome?_map]
    rfl
  have hempty : Draft.renumbered f .empty = .empty := rfl
  rw [readBody, readBody, herror, ← hempty, Draft.foldl_add_renumbered, Draft.finish_renumbered,
    hempty]
  cases error? lines <;> rfl

theorem readChars_renumbered {text other : List Char}
    (h : NumberedLine.ofText other = (NumberedLine.ofText text).map (NumberedLine.renumbered f)) :
    readChars other =
      (readChars text).map fun outcome => outcome.map (Reading.renumbered f) := by
  rw [readChars, readChars, h]
  cases NumberedLine.ofText text with
  | nil => rfl
  | cons header rest =>
    have hbody : body (rest.map (NumberedLine.renumbered f)) =
        (body rest).map (NumberedLine.renumbered f) := by
      rw [body, body, List.filter_map]
      rfl
    have hheader : (header.renumbered f).content = header.content := rfl
    simp only [List.map_cons, hheader, hbody, readBody_renumbered]
    cases Header.kind? header.content with
    | none => rfl
    | some kind =>
      cases hflow : kind.isFlow with
      | false => simp [hflow, Except.map]
      | true =>
        cases hread : readBody kind (Header.direction header.content) (body rest) <;>
          simp [hflow, hread, Except.map]

theorem arrangedIf_renumbered (placed : Bool) (reading : Reading) :
    (reading.renumbered f).arrangedIf placed = (reading.arrangedIf placed).renumbered f := by
  cases placed <;> rfl

section Spaced

variable {ls others : List (List Char)} {place : Nat → Nat} {lineEnd otherEnd : List Char}

/-- Lines with blank lines and comments inserted, indented otherwise and ended otherwise are read as
the same document, or refused or broken off for the same reason; and the same is reported, with the
number that each line now has. -/
theorem readWith_spacedOut (placed : Bool) (hls : ∀ l ∈ ls, OneLine l)
    (hothers : ∀ l ∈ others, OneLine l) (h : SpacedOut ls others place)
    (hend : lineEnd ∈ lineEnds) (hother : otherEnd ∈ lineEnds) :
    readWith placed (String.ofList (joinWith otherEnd others)) =
      (readWith placed (String.ofList (joinWith lineEnd ls))).map fun outcome =>
        outcome.map (Reading.renumbered (newNumber place)) := by
  have hlines : NumberedLine.ofText (joinWith otherEnd others) =
      (NumberedLine.ofText (joinWith lineEnd ls)).map (NumberedLine.renumbered (newNumber place)) := by
    rw [NumberedLine.ofText, NumberedLine.ofText, significant_lines_joinWith hother hothers,
      significant_lines_joinWith hend hls, h.significant_eq]
  rw [readWith_eq_map, readWith_eq_map, String.toList_ofList, String.toList_ofList,
    readChars_renumbered hlines]
  rcases readChars (joinWith lineEnd ls) with e | e | reading
  · rfl
  · rfl
  · simp only [Except.map, arrangedIf_renumbered]

end Spaced

/-- A skipped line and a position in vain below an edge. -/
def denseLines : List (List Char) :=
  ["graph LR", "A --> B;", "?", "linkStyle 4 stroke:red"].map String.toList

/-- The same lines between blank lines and comments, indented in other ways. -/
def airyLines : List (List Char) :=
  ["", "%% edges", "  graph LR\t", "A --> B;", "\t", "    ?", "\t%% ?", "linkStyle 4 stroke:red  ",
    ""].map String.toList

/-- With carriage returns for line feeds, lines 3 and 4 are reported as lines 6 and 8. -/
theorem readWith_airyLines : ∃ reading,
    readWith true (String.ofList (joinWith ['\n'] denseLines)) = .ok (.ok reading) ∧
      reading.issues.map Issue.line? = [some 3, some 4] ∧
      readWith true (String.ofList (joinWith ['\r'] airyLines)) = .ok (.ok
        ⟨reading.document, reading.issues.map (Issue.renumbered (newNumber ([2, 3, 5, 7].getD · 0)))⟩) ∧
      (reading.issues.map (Issue.renumbered (newNumber ([2, 3, 5, 7].getD · 0)))).map Issue.line? =
        [some 6, some 8] := by
  have hspaced : SpacedOut denseLines airyLines ([2, 3, 5, 7].getD · 0) := by decide +kernel
  have htest : testReading (readWith true (String.ofList (joinWith ['\n'] denseLines)))
      (fun reading => reading.issues.map Issue.line? = [some 3, some 4] ∧
        (reading.issues.map (Issue.renumbered (newNumber ([2, 3, 5, 7].getD · 0)))).map Issue.line? =
          [some 6, some 8]) = true := by
    decide +kernel
  obtain ⟨reading, hread, hnumbers⟩ := exists_of_testReading htest
  obtain ⟨hdense, hairy⟩ := of_decide_eq_true hnumbers
  have hother : readWith true (String.ofList (joinWith ['\r'] airyLines)) =
      (readWith true (String.ofList (joinWith ['\n'] denseLines))).map _ :=
    readWith_spacedOut true (by decide +kernel) (by decide +kernel) hspaced (by decide) (by decide)
  rw [hread] at hother
  exact ⟨reading, hread, hdense, hother, hairy⟩

end Diagram
end Flowchart
