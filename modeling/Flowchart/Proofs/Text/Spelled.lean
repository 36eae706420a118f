import Flowchart.Json.Writer
import Flowchart.Proofs.Grammar.ArrowSearch
import Flowchart.Proofs.Number.Shortest

/-! Texts that hold characters only, no halves of surrogate pairs. Quoting makes such a text of any other
one, so that the display text of a value is one unless it is that of a string. -/
namespace Flowchart

namespace Text

/-- The text is spelled in characters only. -/
def IsSpelled (s : List Char) : Prop :=
  ∃ cs, s = ofChars cs

variable {s t : List Char}

theorem points_ofChars_append (s t : List Char) : points (ofChars s ++ t) = s.map Char.toNat ++ points t := by
  induction s with
  | nil => rfl
  | cons c s ih =>
    have hc : c.toNat.isValidChar := c.valid
    rw [ofChars, List.flatMap_cons, ← ofChars, List.append_assoc, points_ofPoint_append (.inr hc), ih]
    rfl

/-- What stands behind a spelled text decides whether the whole is free of halves. -/
theorem IsSpelled.isWhole_append (hs : IsSpelled s) (t : List Char) : isWhole (s ++ t) = isWhole t := by
  obtain ⟨cs, rfl⟩ := hs
  have hcs : (cs.map Char.toNat).all (!isHalf ·) = true := by simp [isHalf_toNat]
  rw [isWhole, points_ofChars_append, List.all_append, hcs, Bool.true_and, isWhole]

theorem IsSpelled.isWhole (hs : IsSpelled s) : isWhole s = true := by
  rw [← List.append_nil s, hs.isWhole_append]
  rfl

theorem IsSpelled.nil : IsSpelled [] :=
  ⟨[], rfl⟩

theorem IsSpelled.append (hs : IsSpelled s) (ht : IsSpelled t) : IsSpelled (s ++ t) := by
  obtain ⟨cs, rfl⟩ := hs
  obtain ⟨ds, rfl⟩ := ht
  exact ⟨cs ++ ds, List.flatMap_append.symm⟩

theorem isSpelled_flatMap {α : Type} {xs : List α} {f : α → List Char} (h : ∀ x ∈ xs, IsSpelled (f x)) :
    IsSpelled (xs.flatMap f) := by
  induction xs with
  | nil => exact .nil
  | cons x xs ih =>
    rw [List.forall_mem_cons] at h
    rw [List.flatMap_cons]
    exact h.1.append (ih h.2)

/-- Characters below all marks stand for themselves. -/
theorem isSpelled_of_low (h : ∀ c ∈ s, c.toNat < halfDistance) : IsSpelled s := by
  refine ⟨s, ?_⟩
  have hself : s.flatMap (fun c => ofPoint c.toNat) = s.flatMap ([·]) :=
    List.flatMap_congr fun c hc => ofPoint_toNat (h c hc)
  rw [ofChars, hself, List.flatMap_singleton']

theorem IsSpelled.cons {c : Char} (hc : c.toNat < halfDistance) (hs : IsSpelled s) : IsSpelled (c :: s) :=
  (isSpelled_of_low (s := [c]) (by simpa using hc)).append hs

theorem isSpelled_ofPoint {n : Nat} (hn : n.isValidChar) : IsSpelled (ofPoint n) := by
  refine ⟨[Char.ofNat n], ?_⟩
  rw [ofChars, List.flatMap_singleton, toNat_ofNat hn]

private theorem isHalf_or_isValidChar {n : Nat} (h : n < 0x110000) : isHalf n ∨ n.isValidChar := by
  simp only [isHalf, Bool.and_eq_true, decide_eq_true_eq, Nat.isValidChar]
  omega

/-- Whatever characters a text is kept in, its points are characters and halves. -/
theorem arePoints_points (s : List Char) : ArePoints (points s) := by
  have hchar : ∀ c : Char, isHalf c.toNat ∨ c.toNat.isValidChar := fun c => .inr c.valid
  fun_induction points s with
  | case1 => nofun
  | case2 c => simpa [ArePoints] using hchar c
  | case3 d rest ih =>
    refine List.forall_mem_cons.mpr ⟨?_, ih⟩
    -- Behind the mark a text of points has a stand-in, but any character may stand there.
    split_ifs
    · exact hchar d
    · have hd : d.toNat.isValidChar := d.valid
      rw [Nat.isValidChar] at hd
      exact isHalf_or_isValidChar (by omega)
  | case4 c d rest hc ih => exact List.forall_mem_cons.mpr ⟨hchar c, ih⟩

section Quoted

theorem isSpelled_hexDigits (count n : Nat) : IsSpelled (hexDigits count n) := by
  induction count generalizing n with
  | zero => exact .nil
  | succ count ih =>
    have hdigits : ∀ d < 16, (Nat.digitChar d).toNat < halfDistance := by decide
    exact (ih _).append (isSpelled_of_low (by simpa using hdigits _ (Nat.mod_lt n (by decide))))

/-- In a quoted text only printable points stand for themselves, and halves are not printable. -/
theorem isSpelled_quotedPoint {mark : Char} (hmark : mark.toNat < halfDistance) {n : Nat}
    (hn : isHalf n ∨ n.isValidChar) : IsSpelled (quotedPoint mark n) := by
  have hback : backslash.toNat < halfDistance := by decide
  have hletters : ∀ c ∈ ['n', 'r', 't', 'x', 'u', 'U'], c.toNat < halfDistance := by decide
  have hescape {c : Char} (hc : c.toNat < halfDistance) {s : List Char} (hs : IsSpelled s) :
      IsSpelled (backslash :: c :: s) :=
    .cons hback (.cons hc hs)
  unfold quotedPoint
  split_ifs with hself _ _ _ hprint
  · refine hescape ?_ .nil
    rcases hself with rfl | rfl <;> rwa [Char.ofNat_toNat]
  · exact hescape (hletters _ (by simp)) .nil
  · exact hescape (hletters _ (by simp)) .nil
  · exact hescape (hletters _ (by simp)) .nil
  · rw [isPrintable, Bool.and_eq_true, Bool.not_eq_true'] at hprint
    exact isSpelled_ofPoint (hn.resolve_left (by simp [hprint.1]))
  · exact hescape (hletters _ (by simp)) (isSpelled_hexDigits _ _)
  · exact hescape (hletters _ (by simp)) (isSpelled_hexDigits _ _)
  · exact hescape (hletters _ (by simp)) (isSpelled_hexDigits _ _)

theorem isSpelled_quoted (s : List Char) : IsSpelled (quoted s) := by
  have hmark : ∀ b : Bool, (if b then doubleQuote else singleQuote).toNat < halfDistance := by decide
  rw [quoted]
  exact .cons (hmark _) ((isSpelled_flatMap fun n hn =>
    isSpelled_quotedPoint (hmark _) (arePoints_points s n hn)).append (.cons (hmark _) .nil))

end Quoted

end Text

namespace Json

open Text

private theorem low_of_isNumeralChar {c : Char} (h : Binary64.IsNumeralChar c) :
    c.toNat < halfDistance := by
  rcases h with hdigit | hother
  · have := isDigit_iff_toNat.mp hdigit
    simp only [halfDistance]
    omega
  · revert c
    decide

theorem isSpelled_intText (n : Int) : IsSpelled (intText n) :=
  isSpelled_of_low fun c hc =>
    low_of_isNumeralChar ((chars_intText n c hc).elim (fun h => .inr (by simp [h])) .inl)

theorem isSpelled_displayNumber : ∀ n : Number, IsSpelled (displayNumber n)
  | .whole n => isSpelled_intText n
  | .real _ => isSpelled_of_low fun c hc => low_of_isNumeralChar (Binary64.isNumeralChar_of_mem_toText c hc)
  | .negativeZero => isSpelled_of_low (by decide)

mutual

theorem isSpelled_displayNested : ∀ value : Json, IsSpelled value.displayNested
  | .null => isSpelled_of_low (by decide)
  | .bool true => isSpelled_of_low (by decide)
  | .bool false => isSpelled_of_low (by decide)
  | .number n => isSpelled_displayNumber n
  | .string s => isSpelled_quoted s.toList
  | .array items => .cons (by decide) ((isSpelled_displayItems items).append (isSpelled_of_low (by decide)))
  | .object fields => .cons (by decide) ((isSpelled_displayFields fields).append (isSpelled_of_low (by decide)))

theorem isSpelled_displayItems : ∀ items : List Json, IsSpelled (displayItems items)
  | [] => .nil
  | [item] => isSpelled_displayNested item
  | item :: next :: rest =>
    (isSpelled_displayNested item).append
      (.cons (by decide) (.cons (by decide) (isSpelled_displayItems (next :: rest))))

theorem isSpelled_displayFields : ∀ fields : List (String × Json), IsSpelled (displayFields fields)
  | [] => .nil
  | [(key, value)] =>
    (isSpelled_quoted key.toList).append
      (.cons (by decide) (.cons (by decide) (isSpelled_displayNested value)))
  | (key, value) :: next :: rest =>
    ((isSpelled_quoted key.toList).append
      (.cons (by decide) (.cons (by decide) (isSpelled_displayNested value)))).append
      (.cons (by decide) (.cons (by decide) (isSpelled_displayFields (next :: rest))))

end

/-- The display text of a value holds characters only, unless the value is a string: that stands as it is. -/
theorem isSpelled_display {value : Json} (h : ∀ s, value ≠ .string s) : IsSpelled value.display := by
  cases value with
  | string s => exact absurd rfl (h s)
  | _ => exact isSpelled_displayNested _

/-- The display text of a value holds a half only if the value is a string that holds one. -/
theorem isWhole_toDisplayString_iff (value : Json) :
    Text.isWhole value.toDisplayString.toList = false ↔
      ∃ s, value = .string s ∧ Text.isWhole s.toList = false := by
  have hself : value.toDisplayString.toList = value.display := String.toList_ofList
  rw [hself]
  by_cases hstring : ∃ s, value = .string s
  · obtain ⟨s, rfl⟩ := hstring
    simp [display]
  · rw [not_exists] at hstring
    refine iff_of_false (ne_false_of_eq_true (isSpelled_display hstring).isWhole) ?_
    rintro ⟨s, hs, -⟩
    exact hstring s hs

end Json
end Flowchart
