import Flowchart.Text.Blank
import Mathlib.Data.List.DropRight
import Mathlib.Tactic.Common

/-! Trimming takes blanks away at both ends and nothing else. -/
namespace Flowchart.Text

variable {p : Char → Bool} {s t : List Char}

theorem dropEndWhile_eq_self (h : ∀ c ∈ s.getLast?, p c = false) : dropEndWhile p s = s := by
  change s.rdropWhile p = s
  rw [List.rdropWhile_eq_self_iff]
  intro hs
  have := h _ (List.getLast?_eq_some_getLast hs)
  simp [this]

theorem dropEndWhile_append (ht : ∀ c ∈ t, p c = true) :
    dropEndWhile p (s ++ t) = dropEndWhile p s := by
  have hr : ∀ c ∈ t.reverse, p c = true := fun c hc => ht c (List.mem_reverse.mp hc)
  simp only [dropEndWhile, List.reverse_append, List.dropWhile_append_of_pos hr]

theorem dropEndWhile_append_cons {c : Char} (hc : p c = false) (s t : List Char) :
    dropEndWhile p (s ++ c :: t) = s ++ c :: dropEndWhile p t := by
  have hstop : (c :: s.reverse).dropWhile p = c :: s.reverse := by simp [hc]
  simp only [dropEndWhile, List.reverse_append, List.reverse_cons, List.append_assoc,
    List.singleton_append]
  rw [List.dropWhile_append, hstop]
  split_ifs with he
  · simp [List.isEmpty_iff.mp he]
  · simp

theorem exists_dropEndWhile_append (p : Char → Bool) (s : List Char) :
    ∃ e, s = dropEndWhile p s ++ e ∧ ∀ c ∈ e, p c = true := by
  refine ⟨(s.reverse.takeWhile p).reverse, ?_, fun c hc => ?_⟩
  · rw [dropEndWhile, ← List.reverse_append, List.takeWhile_append_dropWhile, List.reverse_reverse]
  · exact List.mem_takeWhile_imp (List.mem_reverse.mp hc)

theorem dropEndWhile_isPrefix (p : Char → Bool) (s : List Char) : dropEndWhile p s <+: s :=
  List.rdropWhile_prefix p s

theorem getLast?_dropEndWhile {c : Char} (h : (dropEndWhile p s).getLast? = some c) :
    p c = false := by
  have hne : dropEndWhile p s ≠ [] := by
    intro hn
    simp [hn] at h
  have hl := List.rdropWhile_last_not p s hne
  rw [List.getLast?_eq_some_getLast hne, Option.some.injEq] at h
  change ¬p ((dropEndWhile p s).getLast hne) = true at hl
  rw [h] at hl
  simpa using hl

theorem head?_dropWhile {c : Char} (h : (s.dropWhile p).head? = some c) :
    p c = false := by
  have := List.head?_dropWhile_not p s
  rw [h] at this
  simpa using this

private theorem dropEndWhile_dropWhile_eq_self (hh : ∀ c ∈ s.head?, p c = false)
    (hl : ∀ c ∈ s.getLast?, p c = false) : dropEndWhile p (s.dropWhile p) = s := by
  have hd : s.dropWhile p = s := by
    cases s with
    | nil => rfl
    | cons c rest => simp [hh c rfl]
  rw [hd, dropEndWhile_eq_self hl]

theorem trim_eq_self (hh : ∀ c ∈ s.head?, isBlank c = false)
    (hl : ∀ c ∈ s.getLast?, isBlank c = false) : trim s = s :=
  dropEndWhile_dropWhile_eq_self hh hl

/-- White space in the narrow sense is blank, so a text without blanks has none of it. -/
theorem trimSpace_eq_self (h : ∀ c ∈ s, isBlank c = false) : trimSpace s = s := by
  have hs : ∀ c ∈ s, isSpace c = false := fun c hc => by simp [isSpace, h c hc]
  exact dropEndWhile_dropWhile_eq_self (fun c hc => hs c (List.mem_of_mem_head? hc))
    (fun c hc => hs c (List.mem_of_getLast? hc))

theorem trim_blanks_append (ht : ∀ c ∈ t, isBlank c = true) : trim (t ++ s) = trim s := by
  rw [trim, trim, List.dropWhile_append_of_pos ht]

theorem trim_append_blanks (ht : ∀ c ∈ t, isBlank c = true) : trim (s ++ t) = trim s := by
  have hn : t.dropWhile isBlank = [] := List.dropWhile_eq_nil_iff.mpr ht
  rw [trim, trim, List.dropWhile_append]
  split_ifs with he
  · rw [hn, List.isEmpty_iff.mp he]
  · exact dropEndWhile_append ht

theorem trim_isInfix (s : List Char) : trim s <:+: s :=
  (dropEndWhile_isPrefix isBlank _).isInfix.trans (List.dropWhile_suffix isBlank).isInfix

theorem head?_trim {c : Char} (h : (trim s).head? = some c) : isBlank c = false := by
  obtain ⟨r, hr⟩ := dropEndWhile_isPrefix isBlank (s.dropWhile isBlank)
  apply head?_dropWhile (s := s)
  rw [← hr]
  change (trim s ++ r).head? = some c
  simp [List.head?_append, h]

theorem getLast?_trim {c : Char} (h : (trim s).getLast? = some c) : isBlank c = false :=
  getLast?_dropEndWhile h

theorem trim_eq_nil_iff : trim s = [] ↔ ∀ c ∈ s, isBlank c = true := by
  constructor
  · intro h
    obtain ⟨e, he, hblank⟩ := exists_dropEndWhile_append isBlank (s.dropWhile isBlank)
    rw [show dropEndWhile isBlank (s.dropWhile isBlank) = [] from h, List.nil_append] at he
    intro c hc
    rw [← List.takeWhile_append_dropWhile (p := isBlank) (l := s), he, List.mem_append] at hc
    exact hc.elim List.mem_takeWhile_imp (hblank c)
  · exact fun h => (trim_append_blanks (s := []) h).trans rfl

theorem eq_nil_of_trim_eq_nil (hl : ∀ c ∈ s.getLast?, isBlank c = false) (h : trim s = []) :
    s = [] := by
  rcases List.eq_nil_or_concat s with rfl | ⟨t, c, rfl⟩
  · rfl
  · have hblank := trim_eq_nil_iff.mp h c (by simp)
    simp [hl c (by simp)] at hblank

/-- Where the end is no blank, trimming takes away the blanks in front. -/
theorem exists_blanks_append_trim (hl : ∀ c ∈ s.getLast?, isBlank c = false) :
    ∃ b, s = b ++ trim s ∧ ∀ c ∈ b, isBlank c = true := by
  refine ⟨s.takeWhile isBlank, ?_, fun c hc => List.mem_takeWhile_imp hc⟩
  have hend : trim s = s.dropWhile isBlank := by
    refine dropEndWhile_eq_self fun c hc => hl c ?_
    obtain ⟨b, hb⟩ := List.dropWhile_suffix (l := s) isBlank
    rw [← hb, List.getLast?_append, Option.mem_def.mp hc, Option.some_or]
    rfl
  rw [hend, List.takeWhile_append_dropWhile]

theorem trim_trim (s : List Char) : trim (trim s) = trim s :=
  trim_eq_self (fun _ => head?_trim) (fun _ => getLast?_trim)

/-- Blanks around a text whose ends are no blanks are what trimming takes away. -/
theorem trim_between {b e : List Char} (hb : ∀ c ∈ b, isBlank c = true)
    (he : ∀ c ∈ e, isBlank c = true) (hs : trim s = s) : trim (b ++ s ++ e) = s := by
  rw [trim_append_blanks he, trim_blanks_append hb, hs]

end Flowchart.Text
