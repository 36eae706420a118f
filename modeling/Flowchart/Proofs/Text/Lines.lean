import Flowchart.Text.Blank
import Flowchart.Text.Line
import Mathlib.Tactic.Common

/-! Lines that are joined by line feeds are read back one by one, and parts that are joined by a
separator are found again at it. -/
namespace Flowchart.Text

/-- What is said of the characters of a text is checked on these, not on all characters that there
are. -/
instance decidableForallMem {p : Char → Prop} [DecidablePred p] (s : List Char) :
    Decidable (∀ c ∈ s, p c) :=
  List.decidableBAll p s

/-- No character of the text ends a line. -/
def OneLine (s : List Char) : Prop :=
  ∀ c ∈ s, isLineBreak c = false

variable {s t : List Char}

@[simp] theorem oneLine_nil : OneLine [] := by simp [OneLine]

@[simp] theorem oneLine_cons {c : Char} : OneLine (c :: s) ↔ isLineBreak c = false ∧ OneLine s := by
  simp [OneLine]

@[simp] theorem oneLine_append : OneLine (s ++ t) ↔ OneLine s ∧ OneLine t := by
  simp only [OneLine, List.mem_append]
  constructor
  · intro h
    exact ⟨fun c hc => h c (.inl hc), fun c hc => h c (.inr hc)⟩
  · rintro ⟨hs, ht⟩ c (hc | hc)
    · exact hs c hc
    · exact ht c hc

theorem OneLine.subset (hs : OneLine s) (h : t ⊆ s) : OneLine t :=
  fun c hc => hs c (h hc)

instance (s : List Char) : Decidable (OneLine s) :=
  decidableForallMem s

theorem isBlank_of_isLineBreak {c : Char} (h : isLineBreak c = true) : isBlank c = true := by
  simp only [isLineBreak, Bool.or_eq_true, Bool.and_eq_true, decide_eq_true_eq, beq_iff_eq] at h
  simp only [isBlank, inRanges, blankRanges, List.any_cons, List.any_nil, Bool.or_false,
    Bool.or_eq_true, Bool.and_eq_true, decide_eq_true_eq]
  omega

theorem oneLine_of_not_isBlank (h : ∀ c ∈ s, isBlank c = false) : OneLine s := by
  intro c hc
  by_contra hb
  have := isBlank_of_isLineBreak (by simpa using hb)
  simp [h c hc] at this

theorem lines_cons {c : Char} (hc : isLineBreak c = false) (s : List Char) :
    lines (c :: s) = prependChar c (lines s) := by
  have hr : c ≠ '\r' := by
    rintro rfl
    exact absurd hc (by decide)
  rw [lines]
  · rw [if_neg (by simp [hc])]
  · intro rest h
    simp [hr] at h

theorem lines_lineFeed (s : List Char) : lines ('\n' :: s) = [] :: lines s := by
  rw [lines]
  · rw [if_pos (by decide)]
  · intro rest h
    simp at h

theorem lines_oneLine_append (hs : OneLine s) (t : List Char) :
    lines (s ++ '\n' :: t) = s :: lines t := by
  induction s with
  | nil => exact lines_lineFeed t
  | cons c s ih =>
    obtain ⟨hc, hs⟩ := oneLine_cons.mp hs
    rw [List.cons_append, lines_cons hc, ih hs]
    rfl

theorem lines_oneLine (hs : OneLine s) (hne : s ≠ []) : lines s = [s] := by
  induction s with
  | nil => exact absurd rfl hne
  | cons c s ih =>
    obtain ⟨hc, hs⟩ := oneLine_cons.mp hs
    rw [lines_cons hc]
    cases s with
    | nil => rfl
    | cons d s => rw [ih hs (by simp)]; rfl

/-- Only the last line must not be empty: a break at the very end opens no further line. -/
theorem lines_joinWith {ls : List (List Char)} (h : ∀ l ∈ ls, OneLine l)
    (hl : ls.getLast? ≠ some []) : lines (joinWith ['\n'] ls) = ls := by
  induction ls with
  | nil => rfl
  | cons l ls ih =>
    have hl1 : OneLine l := h l (by simp)
    cases ls with
    | nil =>
      have : l ≠ [] := by simpa using hl
      exact lines_oneLine hl1 this
    | cons m ls =>
      have hm := ih (fun x hx => h x (List.mem_cons_of_mem _ hx)) (by simpa using hl)
      rw [joinWith, List.append_assoc, List.singleton_append, lines_oneLine_append hl1, hm]
      simp

theorem oneLine_joinWith {sep : List Char} {parts : List (List Char)} (hsep : OneLine sep)
    (h : ∀ part ∈ parts, OneLine part) : OneLine (joinWith sep parts) := by
  induction parts with
  | nil => exact oneLine_nil
  | cons part parts ih =>
    cases parts with
    | nil => exact h part (by simp)
    | cons next parts =>
      have hn := ih fun x hx => h x (List.mem_cons_of_mem _ hx)
      simp [joinWith, hsep, hn, h part]

theorem joinWith_cons_cons (sep part next : List Char) (parts : List (List Char)) :
    joinWith sep (part :: next :: parts) = part ++ sep ++ joinWith sep (next :: parts) :=
  rfl

theorem mem_joinWith {sep : List Char} {parts : List (List Char)} {c : Char}
    (h : c ∈ joinWith sep parts) : (∃ part ∈ parts, c ∈ part) ∨ c ∈ sep := by
  induction parts with
  | nil => cases h
  | cons part parts ih =>
    cases parts with
    | nil => exact .inl ⟨part, List.mem_cons_self, h⟩
    | cons next parts =>
      rw [joinWith_cons_cons, List.mem_append, List.mem_append] at h
      rcases h with (h | h) | h
      · exact .inl ⟨part, List.mem_cons_self, h⟩
      · exact .inr h
      · rcases ih h with ⟨other, hother, hc⟩ | hc
        · exact .inl ⟨other, List.mem_cons_of_mem _ hother, hc⟩
        · exact .inr hc

/-- Only the last part stands at the end of what is joined. -/
theorem exists_joinWith_concat (sep : List Char) (parts : List (List Char)) :
    ∃ front, ∀ part, joinWith sep (parts ++ [part]) = front ++ part := by
  induction parts with
  | nil => exact ⟨[], fun _ => rfl⟩
  | cons first parts ih =>
    obtain ⟨front, hf⟩ := ih
    refine ⟨first ++ sep ++ front, fun part => ?_⟩
    rw [List.append_assoc, ← hf]
    cases parts <;> simp [joinWith]

private theorem oneLine_of_mem_prependChar {c : Char} {ls : List (List Char)}
    (hc : isLineBreak c = false) (h : ∀ l ∈ ls, OneLine l) : ∀ l ∈ prependChar c ls, OneLine l := by
  cases ls with
  | nil => simp [prependChar, hc]
  | cons l ls =>
    intro m hm
    rcases List.mem_cons.mp hm with rfl | hm
    · exact oneLine_cons.mpr ⟨hc, h l (by simp)⟩
    · exact h m (by simp [hm])

theorem oneLine_of_mem_lines {l : List Char} (h : l ∈ lines s) : OneLine l := by
  induction s using lines.induct generalizing l with
  | case1 => simp [lines] at h
  | case2 rest ih =>
    rw [lines, List.mem_cons] at h
    rcases h with rfl | h
    · exact oneLine_nil
    · exact ih h
  | case3 c rest hr hb ih =>
    simp only [lines, if_pos hb, List.mem_cons] at h
    rcases h with rfl | h
    · exact oneLine_nil
    · exact ih h
  | case4 c rest hr hb ih =>
    simp only [lines, if_neg hb] at h
    exact oneLine_of_mem_prependChar (by simpa using hb) (fun _ => ih) l h

section Split

variable {sep : Char}

theorem splitAtChar_of_not_mem (h : sep ∉ s) : splitAtChar sep s = [s] := by
  induction s with
  | nil => rfl
  | cons c s ih =>
    rw [List.mem_cons, not_or] at h
    rw [splitAtChar, if_neg (Ne.symm h.1), ih h.2]
    rfl

theorem splitAtChar_append (h : sep ∉ s) (t : List Char) :
    splitAtChar sep (s ++ sep :: t) = s :: splitAtChar sep t := by
  induction s with
  | nil => simp [splitAtChar]
  | cons c s ih =>
    rw [List.mem_cons, not_or] at h
    rw [List.cons_append, splitAtChar, if_neg (Ne.symm h.1), ih h.2]
    rfl

theorem splitAtChar_joinWith {parts : List (List Char)} (hne : parts ≠ [])
    (h : ∀ part ∈ parts, sep ∉ part) : splitAtChar sep (joinWith [sep] parts) = parts := by
  induction parts with
  | nil => exact absurd rfl hne
  | cons part parts ih =>
    have hp : sep ∉ part := h part (by simp)
    cases parts with
    | nil => exact splitAtChar_of_not_mem hp
    | cons next parts =>
      have hn := ih (by simp) fun x hx => h x (List.mem_cons_of_mem _ hx)
      rw [joinWith, List.append_assoc, List.singleton_append, splitAtChar_append hp, hn]
      simp

theorem mem_of_mem_splitAtChar {part : List Char} (h : part ∈ splitAtChar sep s) :
    sep ∉ part ∧ part ⊆ s := by
  induction s generalizing part with
  | nil =>
    simp only [splitAtChar, List.mem_singleton] at h
    simp [h]
  | cons c s ih =>
    rw [splitAtChar] at h
    split_ifs at h with hc
    · rcases List.mem_cons.mp h with rfl | h
      · simp
      · exact ⟨(ih h).1, fun x hx => List.mem_cons_of_mem _ ((ih h).2 hx)⟩
    · cases hs : splitAtChar sep s with
      | nil =>
        rw [hs, prependChar, List.mem_singleton] at h
        subst h
        simp [Ne.symm hc]
      | cons first others =>
        rw [hs] at h ih
        rcases List.mem_cons.mp h with rfl | h
        · have hf : sep ∉ first ∧ first ⊆ s := ih (by simp)
          refine ⟨by simp [Ne.symm hc, hf.1], ?_⟩
          exact List.cons_subset_cons c hf.2
        · have hp := ih (List.mem_cons_of_mem _ h)
          exact ⟨hp.1, fun x hx => List.mem_cons_of_mem _ (hp.2 hx)⟩

end Split

end Flowchart.Text
