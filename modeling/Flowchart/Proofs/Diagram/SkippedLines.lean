import Flowchart.Proofs.Diagram.Styling

/-! Each line below the header says one thing. Those that are skipped are reported, each once, and have
no other effect: where they are blank the text is read as the same document. -/
namespace Flowchart

open Text Diagram
open NumberedLine (contentOf?)

namespace Statement

def IsSkipped (line : List Char) : Prop :=
  ∃ reason, Says line (.skipped reason)

variable {line : List Char}

theorem skipped?_eq_some_iff {reason : SkipReason} :
    (ofLine line).skipped? = some reason ↔ Says line (.skipped reason) := by
  rw [says_iff]
  cases ofLine line <;> simp [skipped?, eq_comm]

theorem isSkipped_iff : IsSkipped line ↔ (ofLine line).skipped?.isSome = true := by
  simp only [Option.isSome_iff_exists, skipped?_eq_some_iff, IsSkipped]

instance (line : List Char) : Decidable (IsSkipped line) :=
  decidable_of_iff _ isSkipped_iff.symm

theorem IsSkipped.eq_nil {α : Type} (h : IsSkipped line) {f : Statement → List α}
    (hf : ∀ reason, f (.skipped reason) = []) : f (ofLine line) = [] := by
  obtain ⟨reason, hsays⟩ := h
  rw [← hsays.eq_ofLine, hf]

end Statement

def Issue.WarnsOfSkip (issue : Issue) (line : NumberedLine) : Prop :=
  ∃ reason, Statement.Says line.content (.skipped reason) ∧ issue.Warns line.number
    ("Skipped line (" ++ reason.text ++ "): " ++ String.ofList line.content)

namespace Diagram

open Statement (IsSkipped)

def skippedLines (text : String) : List NumberedLine :=
  (bodyLines text).filter (IsSkipped ·.content)

/-- The other text has blank lines where lines of the text are skipped, and the same lines elsewhere. -/
structure BlanksSkipped (text blanked : String) : Prop where
  blank : ∀ line ∈ skippedLines text, ∀ i, line.number = i + 1 → trim (lineAt blanked i) = []
  same : ∀ i, (∀ line ∈ skippedLines text, line.number ≠ i + 1) →
    lineAt blanked i = lineAt text i

variable {text blanked : String} {placed : Bool} {reading : Reading}

section Blanked

theorem lines_flatMap_lineFeed {ls : List (List Char)} (h : ∀ l ∈ ls, OneLine l) :
    lines (ls.flatMap (· ++ ['\n'])) = ls := by
  induction ls with
  | nil => rfl
  | cons l ls ih =>
    rw [List.flatMap_cons, List.append_assoc, List.singleton_append,
      lines_oneLine_append (h l List.mem_cons_self),
      ih fun l hl => h l (List.mem_cons_of_mem _ hl)]

theorem exists_blanksSkipped (text : String) : ∃ blanked, BlanksSkipped text blanked := by
  let raws := (lines text.toList).mapIdx fun i raw =>
    if ∃ line ∈ skippedLines text, line.number = i + 1 then [] else raw
  have hraws : ∀ i, raws.getD i [] =
      if ∃ line ∈ skippedLines text, line.number = i + 1 then [] else lineAt text i := by
    intro i
    rw [List.getD_eq_getElem?_getD, List.getElem?_mapIdx, lineAt, List.getD_eq_getElem?_getD]
    cases (lines text.toList)[i]? <;> simp
  have hone : ∀ raw ∈ raws, OneLine raw := by
    intro raw hraw
    obtain ⟨i, hi, rfl⟩ := List.mem_mapIdx.mp hraw
    split_ifs
    · exact oneLine_nil
    · exact oneLine_of_mem_lines (List.getElem_mem hi)
  refine ⟨String.ofList (raws.flatMap (· ++ ['\n'])), fun line hl i hi => ?_, fun i hi => ?_⟩
  · rw [lineAt, String.toList_ofList, lines_flatMap_lineFeed hone, hraws, if_pos ⟨line, hl, hi⟩]
    rfl
  · rw [lineAt, String.toList_ofList, lines_flatMap_lineFeed hone, hraws, if_neg]
    rintro ⟨line, hl, hline⟩
    exact hi line hl hline

theorem contentOf?_of_trim {raw : List Char} (h : trim raw = []) : contentOf? raw = none := by
  rw [contentOf?, h]
  rfl

theorem BlanksSkipped.ofText_eq (h : BlanksSkipped text blanked) :
    NumberedLine.ofText blanked.toList =
      (NumberedLine.ofText text.toList).filter (· ∉ skippedLines text) := by
  refine NumberedLine.significant_filter fun i content => ?_
  rw [← lineAt, ← lineAt, decide_eq_true_iff]
  by_cases hi : ∃ line ∈ skippedLines text, line.number = i + 1
  · obtain ⟨line, hl, hnumber⟩ := hi
    rw [contentOf?_of_trim (h.blank line hl i hnumber)]
    obtain ⟨j, hj, hcontent, -⟩ := mem_bodyLines_iff.mp (List.mem_filter.mp hl).1
    obtain rfl : j = i := by omega
    constructor
    · intro hnone
      cases hnone
    · rintro ⟨hsome, hkeep⟩
      obtain rfl : line.content = content := Option.some.inj (hcontent.symm.trans hsome)
      refine absurd ?_ hkeep
      rw [Nat.add_comm, ← hnumber]
      exact hl
  · push Not at hi
    rw [h.same i hi, iff_self_and]
    intro _ hl
    exact hi _ hl (Nat.add_comm 1 i)

theorem head?_not_mem_skippedLines {header : NumberedLine}
    (h : (NumberedLine.ofText text.toList).head? = some header) : header ∉ skippedLines text := by
  obtain ⟨rest, hrest⟩ := List.head?_eq_some_iff.mp h
  intro hl
  have hpairwise := pairwise_ofText text
  have hmem := List.mem_filter.mp (List.mem_filter.mp hl).1
  rw [hrest, List.pairwise_cons] at hpairwise
  rw [hrest] at hmem
  exact Nat.lt_irrefl _ (hpairwise.1 header hmem.1)

theorem BlanksSkipped.head?_eq (h : BlanksSkipped text blanked) {header : NumberedLine}
    (hh : (NumberedLine.ofText text.toList).head? = some header) :
    (NumberedLine.ofText blanked.toList).head? = some header := by
  have hkeep := head?_not_mem_skippedLines hh
  obtain ⟨rest, hrest⟩ := List.head?_eq_some_iff.mp hh
  rw [h.ofText_eq, hrest, List.filter_cons_of_pos (by simpa using hkeep)]
  rfl

theorem BlanksSkipped.bodyLines_eq (h : BlanksSkipped text blanked) {header : NumberedLine}
    (hh : (NumberedLine.ofText text.toList).head? = some header) :
    bodyLines blanked = (bodyLines text).filter (!IsSkipped ·.content) := by
  have hkeep := head?_not_mem_skippedLines hh
  obtain ⟨rest, hrest⟩ := List.head?_eq_some_iff.mp hh
  have hbody : bodyLines blanked = (bodyLines text).filter (· ∉ skippedLines text) := by
    rw [bodyLines, bodyLines, h.ofText_eq, hrest, List.filter_cons_of_pos (by simpa using hkeep),
      List.tail_cons, List.tail_cons, body, body, List.filter_comm]
  rw [hbody]
  refine List.filter_congr fun line hl => ?_
  simp [skippedLines, hl]

end Blanked

section Read

variable (h : BlanksSkipped text blanked) {header : NumberedLine}
  (hh : (NumberedLine.ofText text.toList).head? = some header)
include h hh

theorem BlanksSkipped.flatMap_eq {α : Type} {f : NumberedLine → List α}
    (hf : ∀ line, IsSkipped line.content → f line = []) :
    (bodyLines blanked).flatMap f = (bodyLines text).flatMap f := by
  rw [h.bodyLines_eq hh]
  exact flatMap_filter (fun line hl => hf line (by simpa using hl)) _

theorem BlanksSkipped.flatMap_bodyStatements_eq {α : Type} {f : Statement → List α}
    (hf : ∀ reason, f (.skipped reason) = []) :
    (bodyStatements blanked).flatMap f = (bodyStatements text).flatMap f := by
  rw [flatMap_bodyStatements, flatMap_bodyStatements]
  exact h.flatMap_eq hh fun line hl => hl.eq_nil hf

theorem BlanksSkipped.filterMap_bodyStatements_eq {α : Type} {f : Statement → Option α}
    (hf : ∀ reason, f (.skipped reason) = none) :
    (bodyStatements blanked).filterMap f = (bodyStatements text).filterMap f := by
  rw [List.filterMap_eq_flatMap_toList, List.filterMap_eq_flatMap_toList]
  exact h.flatMap_bodyStatements_eq hh fun reason => by rw [hf]; rfl

theorem BlanksSkipped.exists_readWith (hr : readWith placed text = .ok (.ok reading)) :
    ∃ again, readWith placed blanked = .ok (.ok again) ∧ again.document = reading.document := by
  obtain ⟨header', kind, hhead, hkind, hflow, herr, rfl⟩ := readWith_eq_reading_iff.mp hr
  obtain rfl : header' = header := Option.some.inj (hhead.symm.trans hh)
  have herror : error? (bodyLines blanked) = none := by
    rw [error?_eq_none_iff, h.bodyLines_eq hh]
    exact fun line hl => error?_eq_none_iff.mp herr line (List.mem_filter.mp hl).1
  refine ⟨_, readWith_eq_reading_iff.mpr ⟨header', kind, h.head?_eq hh, hkind, hflow, herror, rfl⟩,
    document_arrangedIf_congr (Draft.document_finish_congr (bodyStatements_eq blanked) kind _
      (bodyStatements_eq text) ?_ ?_ ?_ ?_)⟩
  · exact h.flatMap_bodyStatements_eq hh fun _ => rfl
  · exact h.filterMap_bodyStatements_eq hh fun _ => rfl
  · exact h.filterMap_bodyStatements_eq hh fun _ => rfl
  · exact h.filterMap_bodyStatements_eq hh fun _ => rfl

theorem BlanksSkipped.skipIssues_eq_nil : (bodyLines blanked).filterMap Draft.skipIssue? = [] := by
  rw [h.bodyLines_eq hh, List.filterMap_eq_nil_iff]
  intro line hl
  have hskipped : (Statement.ofLine line.content).skipped? = none := by
    simpa [Statement.isSkipped_iff] using (List.mem_filter.mp hl).2
  rw [Draft.skipIssue?, hskipped]
  rfl

/-- Where skipped lines are blank the same document is read, and only stray positions are reported. -/
theorem BlanksSkipped.readWith_eq (hr : readWith placed text = .ok (.ok reading)) :
    readWith placed blanked = .ok (.ok ⟨reading.document,
      (bodyLines text).flatMap (Draft.rangeIssues reading.document.edges.length)⟩) := by
  obtain ⟨again, hread, hdocument⟩ := h.exists_readWith hh hr
  have hranges : ∀ line : NumberedLine, IsSkipped line.content →
      Draft.rangeIssues reading.document.edges.length line = [] := by
    intro line hl
    have hstyle : (Statement.ofLine line.content).edgeStyle?.toList = [] :=
      hl.eq_nil (f := fun s => s.edgeStyle?.toList) fun _ => rfl
    rw [Draft.rangeIssues, hstyle]
    rfl
  have hissues := issues_of_readWith hread
  rw [h.skipIssues_eq_nil hh, List.nil_append, hdocument, h.flatMap_eq hh hranges] at hissues
  rw [hread, ← hissues, ← hdocument]

end Read

theorem forall₂_skippedLines (text : String) :
    List.Forall₂ (fun line issue => Issue.WarnsOfSkip issue line) (skippedLines text)
      ((bodyLines text).filterMap Draft.skipIssue?) := by
  unfold skippedLines
  induction bodyLines text with
  | nil => exact .nil
  | cons line lines ih =>
    cases hs : (Statement.ofLine line.content).skipped? with
    | none =>
      have hskipped : ¬IsSkipped line.content := by simp [Statement.isSkipped_iff, hs]
      rw [List.filter_cons_of_neg (by simpa using hskipped),
        List.filterMap_cons_none (by simp [Draft.skipIssue?, hs])]
      exact ih
    | some reason =>
      have hskipped : IsSkipped line.content := by simp [Statement.isSkipped_iff, hs]
      have hissue : Draft.skipIssue? line =
          some (.skippedLine line.number reason (String.ofList line.content)) := by
        simp [Draft.skipIssue?, hs]
      rw [List.filter_cons_of_pos (by simpa using hskipped), List.filterMap_cons_some hissue]
      exact .cons ⟨reason, Statement.skipped?_eq_some_iff.mp hs, rfl, rfl, rfl⟩ ih

/-- Each line below the header says one thing, and breaks nothing off. The skipped ones are reported
first, in their order, then the stray positions; blanking the skipped lines leaves the document as it
is and these reports out. -/
theorem skips_of_readWith (h : readWith placed text = .ok (.ok reading)) :
    ((∀ line, line ∈ bodyLines text ↔ IsBodyLine text line) ∧
      (bodyLines text).Pairwise (·.number < ·.number)) ∧
    (∀ line ∈ bodyLines text, (∃! s, Statement.Says line.content s) ∧
      ∀ e, ¬Statement.Says line.content (.broken e)) ∧
    ∃ skips strays, reading.issues = skips ++ strays ∧
      List.Forall₂ (fun line issue => issue.WarnsOfSkip line) (skippedLines text) skips ∧
      List.Forall₂ (fun stray issue => issue.WarnsOfStray reading.document.edges.length stray)
        (strayPositions text reading.document.edges.length) strays ∧
      (∃ blanked, BlanksSkipped text blanked) ∧
      ∀ blanked, BlanksSkipped text blanked →
        readWith placed blanked = .ok (.ok ⟨reading.document, strays⟩) := by
  obtain ⟨header, kind, hhead, -, -, herr, -⟩ := readWith_eq_reading_iff.mp h
  refine ⟨⟨fun line => mem_bodyLines_iff, pairwise_bodyLines text⟩, fun line hl => ⟨?_, ?_⟩,
    _, _, issues_of_readWith h, forall₂_skippedLines text, forall₂_strayPositions text _,
    exists_blanksSkipped text, fun blanked hb => hb.readWith_eq hhead h⟩
  · exact ⟨_, Statement.says_ofLine line.content, fun s hs => hs.eq_ofLine⟩
  · intro e he
    exact error?_eq_none_iff.mp herr line hl e he.eq_ofLine.symm

/-- Lines that are skipped for each of the three reasons, a comment and a line of semicolons between
lines that count, and a position in vain. -/
def patchyText : String :=
  "\ngraph LR\n?;\n%% ?\nA --> B;\nstyle A\n;;\nlinkStyle 2 stroke:red\nA --> ?"

/-- Lines 3, 6 and 9 are skipped; without them only the position is reported. -/
theorem skips_patchyText : ∃ reading, readWith true patchyText = .ok (.ok reading) ∧
    (skippedLines patchyText).map (·.number) = [3, 6, 9] ∧
    ∃ blanked, BlanksSkipped patchyText blanked ∧
      ∃ strays, strays.length = 1 ∧ readWith true blanked = .ok (.ok ⟨reading.document, strays⟩) := by
  have hskipped : (skippedLines patchyText).map (·.number) = [3, 6, 9] := by decide +kernel
  have htest : testReading (readWith true patchyText) (fun reading =>
      (strayPositions patchyText reading.document.edges.length).length = 1) = true := by
    decide +kernel
  obtain ⟨reading, hread, hstray⟩ := exists_of_testReading htest
  obtain ⟨-, -, skips, strays, -, -, hstrays, ⟨blanked, hblanked⟩, hagain⟩ := skips_of_readWith hread
  have hlength := hstrays.length_eq.symm.trans (of_decide_eq_true hstray)
  exact ⟨reading, hread, hskipped, blanked, hblanked, strays, hlength, hagain blanked hblanked⟩

end Diagram
end Flowchart
