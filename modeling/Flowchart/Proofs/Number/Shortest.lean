import Flowchart.Number.Shortest
import Flowchart.Proofs.Number.Whole

/-! What the texts of numbers are made of: whole or not, large or small, and also where they are no
numbers at all. -/
namespace Flowchart.Binary64

/-- A digit, a sign, a point, or a letter of an exponent, of infinity or of the undefined number. -/
def IsNumeralChar (c : Char) : Prop :=
  c.isDigit = true ∨ c ∈ ['-', '+', '.', 'e', 'n', 'a', 'i', 'f']

theorem IsNumeralChar.fits {c : Char} (h : IsNumeralChar c) : Text.isBlank c = false ∧ c ≠ ',' := by
  rcases h with h | h
  · refine ⟨isBlank_of_isDigit h, ?_⟩
    rintro rfl
    revert h
    decide
  · revert c
    decide

section Parts

theorem isNumeralChar_of_mem_toDigits {n : Nat} {c : Char} (h : c ∈ Nat.toDigits 10 n) :
    IsNumeralChar c :=
  .inl (Nat.isDigit_of_mem_toDigits (by omega) (by omega) h)

private theorem isNumeralChar_of_mem_zeros {n : Nat} {c : Char} (h : c ∈ List.replicate n '0') :
    IsNumeralChar c := by
  rw [List.eq_of_mem_replicate h]
  exact .inl (by decide)

theorem isNumeralChar_of_mem_shortestDigits {m : Nat} {e : Int} :
    ∀ c ∈ (shortestDigits m e).1, IsNumeralChar c := by
  intro c hc
  simp only [shortestDigits, List.mem_reverse] at hc
  have hsuffix := (List.dropWhile_suffix (· == '0')).subset hc
  exact isNumeralChar_of_mem_toDigits (List.mem_reverse.mp hsuffix)

theorem isNumeralChar_of_mem_exponentText {e : Int} : ∀ c ∈ exponentText e, IsNumeralChar c := by
  intro c hc
  simp only [exponentText, List.mem_cons] at hc
  rcases hc with rfl | hc
  · split_ifs
    · exact .inr (by decide)
    · exact .inr (by decide)
  · split_ifs at hc
    · rcases List.mem_cons.mp hc with rfl | hc
      · exact .inl (by decide)
      · exact isNumeralChar_of_mem_toDigits hc
    · exact isNumeralChar_of_mem_toDigits hc

theorem isNumeralChar_of_mem_layOut {style : Notation} {digits : List Char} {point : Int}
    (hd : ∀ c ∈ digits, IsNumeralChar c) : ∀ c ∈ layOut style digits point, IsNumeralChar c := by
  have hzero : IsNumeralChar '0' := .inl (by decide)
  have hpoint : IsNumeralChar '.' := .inr (by decide)
  intro c hc
  unfold layOut at hc
  split_ifs at hc
  · simp only [List.mem_cons, List.mem_append] at hc
    rcases hc with rfl | rfl | hc | hc
    · exact hzero
    · exact hpoint
    · exact isNumeralChar_of_mem_zeros hc
    · exact hd c hc
  · simp only [List.mem_cons, List.mem_append, List.not_mem_nil, or_false] at hc
    rcases hc with (hc | hc) | rfl | rfl
    · exact hd c hc
    · exact isNumeralChar_of_mem_zeros hc
    · exact hpoint
    · exact hzero
  · simp only [List.mem_cons, List.mem_append] at hc
    rcases hc with hc | rfl | hc
    · exact hd c (List.mem_of_mem_take hc)
    · exact hpoint
    · exact hd c (List.mem_of_mem_drop hc)
  · simp only [List.mem_append, List.mem_cons] at hc
    rcases hc with hc | rfl | hc
    · split at hc
      · cases hc
      · exact hd c hc
      · simp only [List.mem_cons] at hc
        rcases hc with rfl | rfl | hc
        · exact hd c (by simp)
        · exact hpoint
        · exact hd c (by simp [hc])
    · exact .inr (by decide)
    · exact isNumeralChar_of_mem_exponentText c hc

end Parts

theorem isNumeralChar_of_mem_toText {x : Binary64} : ∀ c ∈ x.toText, IsNumeralChar c := by
  intro c hc
  cases x with
  | undefined =>
    revert c
    simp [toText, IsNumeralChar]
  | infinite negative =>
    cases negative <;> revert c <;> simp [toText, IsNumeralChar]
  | finite significand exponent canonical =>
    simp only [toText] at hc
    split_ifs at hc
    · revert c
      simp [IsNumeralChar]
    · rcases List.mem_append.mp hc with hc | hc
      · rw [List.mem_singleton.mp hc]
        exact .inr (by decide)
      · exact isNumeralChar_of_mem_layOut isNumeralChar_of_mem_shortestDigits c hc
    · exact isNumeralChar_of_mem_layOut isNumeralChar_of_mem_shortestDigits c hc

theorem isNumeralChar_of_mem_plainText {x : Binary64} : ∀ c ∈ x.plainText, IsNumeralChar c := by
  intro c hc
  unfold plainText at hc
  split at hc
  · rcases Json.chars_intText _ c hc with rfl | hd
    · exact .inr (by decide)
    · exact .inl hd
  · exact isNumeralChar_of_mem_toText c hc

end Flowchart.Binary64
