import Flowchart.Grammar.Header
import Flowchart.Proofs.Grammar.NodeRef

/-! The kind and the direction in a header are words, so what stands behind the last word of the line
has no part in them. -/
namespace Flowchart

namespace Text

variable {c : Char}

theorem inRanges_eq_false_of_apart {ranges others : List (Nat × Nat)}
    (h : ∀ r ∈ ranges, ∀ q ∈ others, r.2 < q.1 ∨ q.2 < r.1) {n : Nat} (hn : inRanges ranges n = true) :
    inRanges others n = false := by
  simp only [inRanges, List.any_eq_true, List.any_eq_false, Prod.exists, Prod.forall,
    Bool.and_eq_true, decide_eq_true_eq] at hn ⊢
  obtain ⟨first, last, hr, hlow, hhigh⟩ := hn
  intro first' last' hq
  have hapart := h _ hr _ hq
  simp only at hapart
  omega

theorem isWordChar_eq_false_of_isBlank (h : isBlank c = true) : isWordChar c = false := by
  have hlow : c ≠ '_' := by
    rintro rfl
    exact absurd h (by decide)
  have hblank : inRanges blankRanges c.toNat = true := h
  have hranges : inRanges alphanumericRanges c.toNat = false :=
    inRanges_eq_false_of_apart (by decide +kernel) hblank
  simp [isWordChar, hlow, hranges]

theorem isWordChar_of_letter (h : (65 ≤ c.toNat ∧ c.toNat ≤ 90) ∨ (97 ≤ c.toNat ∧ c.toNat ≤ 122)) :
    isWordChar c = true := by
  rw [isWordChar, Bool.or_eq_true, inRanges, List.any_eq_true]
  rcases h with h | h
  · exact .inr ⟨(65, 90), by decide, by simpa using h⟩
  · exact .inr ⟨(97, 122), by decide, by simpa using h⟩

end Text

namespace Header

open Text

variable {a b c : Char} {s t : List Char}

private theorem isWordChar_of_toUpper (h : 65 ≤ c.toUpper.toNat ∧ c.toUpper.toNat ≤ 90) :
    isWordChar c = true := by
  apply isWordChar_of_letter
  by_cases hsmall : 97 ≤ c.toNat ∧ c.toNat ≤ 122
  · exact .inr hsmall
  · have hself : c.toUpper = c := by
      refine dif_neg ?_
      rw [UInt32.le_iff_toNat_le, UInt32.le_iff_toNat_le]
      exact hsmall
    rw [hself] at h
    exact .inl h

theorem isWordChar_of_directionOf? {direction : Direction}
    (h : directionOf? a b = some direction) : isWordChar a = true ∧ isWordChar b = true := by
  unfold directionOf? Direction.ofName? at h
  have hfound := List.find?_some h
  have hname : direction.name = String.ofList [a.toUpper, b.toUpper] := beq_iff_eq.mp hfound
  have hletters : ∀ d ∈ direction.name.toList, 65 ≤ d.toNat ∧ d.toNat ≤ 90 := by
    cases direction <;> decide
  rw [hname, String.toList_ofList] at hletters
  exact ⟨isWordChar_of_toUpper (hletters _ (by simp)),
    isWordChar_of_toUpper (hletters _ (by simp))⟩

theorem directionOf?_eq_none (h : isWordChar a = false ∨ isWordChar b = false) :
    directionOf? a b = none := by
  rw [Option.eq_none_iff_forall_ne_some]
  intro direction hdirection
  obtain ⟨ha, hb⟩ := isWordChar_of_directionOf? hdirection
  simp [ha, hb] at h

theorem isKindChar_eq_false_of_isBlank (h : isBlank c = true) : isKindChar c = false := by
  have hpart := Identifier.isPart_eq_false_of_isBlank h
  have hhyphen : c ≠ '-' := by
    rintro rfl
    exact absurd h (by decide)
  simp only [Identifier.isPart, Identifier.isStart, Bool.or_eq_false_iff] at hpart
  simp [isKindChar, hpart, hhyphen]

theorem findDirection?_eq_none {inWord : Bool} (ht : ∀ c ∈ t, isWordChar c = false) :
    findDirection? inWord t = none := by
  induction t generalizing inWord with
  | nil => rfl
  | cons a t ih =>
    cases t with
    | nil => rfl
    | cons b t =>
      have hnone : directionOf? a b = none := directionOf?_eq_none (.inl (ht a List.mem_cons_self))
      rw [findDirection?, hnone, ih fun c hc => ht c (List.mem_cons_of_mem _ hc)]
      simp

theorem findDirection?_append {inWord : Bool} (ht : ∀ c ∈ t, isWordChar c = false) :
    findDirection? inWord (s ++ t) = findDirection? inWord s := by
  induction s generalizing inWord with
  | nil => exact findDirection?_eq_none ht
  | cons a s ih =>
    cases s with
    | nil =>
      cases t with
      | nil => rfl
      | cons b t =>
        have hnone : directionOf? a b = none :=
          directionOf?_eq_none (.inr (ht b List.mem_cons_self))
        change findDirection? inWord (a :: b :: t) = none
        rw [findDirection?, hnone, findDirection?_eq_none ht]
        simp
    | cons b s =>
      have hstop : ((s ++ t).head?.map isWordChar).getD false = (s.head?.map isWordChar).getD false := by
        cases s with
        | nil => cases t with
          | nil => rfl
          | cons c t => simp [ht c]
        | cons c s => rfl
      change findDirection? inWord (a :: b :: (s ++ t)) = findDirection? inWord (a :: b :: s)
      have hrest : findDirection? (isWordChar a) (b :: (s ++ t)) =
          findDirection? (isWordChar a) (b :: s) := ih
      rw [findDirection?, findDirection?, hstop, hrest]

/-- What stands behind the last word does not change the direction. -/
theorem direction_append (ht : ∀ c ∈ t, isWordChar c = false) : direction (s ++ t) = direction s := by
  rw [direction, direction, findDirection?_append ht]

/-- What stands behind the first word does not change the kind. -/
theorem kind?_append (ht : ∀ c ∈ t.head?, isKindChar c = false) : kind? (s ++ t) = kind? s := by
  have hword : (s ++ t).takeWhile isKindChar = s.takeWhile isKindChar := by
    have hnone : t.takeWhile isKindChar = [] := by
      cases t with
      | nil => rfl
      | cons c t => simp [ht c rfl]
    rw [List.takeWhile_append, hnone]
    split_ifs with hlength
    · rw [List.append_nil, List.IsPrefix.eq_of_length (List.takeWhile_prefix _) hlength]
    · rfl
  rw [kind?, kind?, hword]

end Header
end Flowchart
