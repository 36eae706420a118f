import Flowchart.Proofs.Number.Nearest

/-! The search for a short numeral ends with one that rounds to the number: seventeen digits are always
enough. -/
namespace Flowchart.Binary64

section Length

variable {n : Nat}

theorem pow_decimalLength (hn : 0 < n) :
    (10 : ℚ) ^ ((decimalLength n : Int) - 1) ≤ n ∧ (n : ℚ) < 10 ^ (decimalLength n : Int) := by
  have hpos : 0 < decimalLength n := Nat.length_toDigits_pos
  have hbelow : n < 10 ^ decimalLength n :=
    (Nat.length_toDigits_le_iff (by decide) hpos).mp le_rfl
  have habove : 10 ^ (decimalLength n - 1) ≤ n := by
    by_cases hone : decimalLength n = 1
    · rw [hone]
      exact hn
    · by_contra hlt
      have := (Nat.length_toDigits_le_iff (by decide) (by omega)).mpr (not_le.mp hlt)
      rw [← decimalLength] at this
      omega
  constructor
  · rw [show (decimalLength n : Int) - 1 = ((decimalLength n - 1 : Nat) : Int) by omega, zpow_natCast]
    exact_mod_cast habove
  · rw [zpow_natCast]
    exact_mod_cast hbelow

end Length

theorem pointPosition_spec {a : Fraction} (hn : 0 < a.numerator) (hd : 0 < a.denominator) :
    (10 : ℚ) ^ (pointPosition a - 1) ≤ a.value ∧ a.value < 10 ^ pointPosition a := by
  obtain ⟨hnl, hnh⟩ := pow_decimalLength hn
  obtain ⟨hdl, hdh⟩ := pow_decimalLength hd
  obtain ⟨hbelow, habove⟩ := between_zpow_div (by norm_num) hnl (by rwa [Int.sub_add_cancel]) hdl
    (by rwa [Int.sub_add_cancel])
  rw [sub_sub_sub_cancel_right] at hbelow habove
  unfold pointPosition
  dsimp only
  generalize (decimalLength a.numerator : Int) - decimalLength a.denominator = guess at *
  have hfits : (Fraction.ofDecimal 1 guess).le a = true ↔ (10 : ℚ) ^ guess ≤ a.value := by
    rw [Fraction.le_iff (Fraction.denominator_ofDecimal_pos _ _) hd, Fraction.value_ofDecimal,
      Nat.cast_one, one_mul]
  by_cases h : (10 : ℚ) ^ guess ≤ a.value
  · rw [if_pos (hfits.mpr h), Int.add_sub_cancel]
    exact ⟨h, habove⟩
  · rw [if_neg fun hf => h (hfits.mp hf)]
    exact ⟨hbelow.le, not_le.mp h⟩

theorem Fraction.floor_shift_spec (a : Fraction) (unit : Int) :
    ((a.shift unit).floor : ℚ) * 10 ^ unit ≤ a.value ∧
      a.value < ((a.shift unit).floor + 1) * 10 ^ unit := by
  have hunit : (0 : ℚ) < 10 ^ unit := by positivity
  have hnonneg : 0 ≤ a.value := div_nonneg (Nat.cast_nonneg _) (Nat.cast_nonneg _)
  have hfloor := Fraction.floor_eq (a.shift unit)
  rw [Fraction.value_shift] at hfloor
  rw [← le_div_iff₀ hunit, ← div_lt_iff₀ hunit, hfloor]
  exact ⟨Nat.floor_le (div_nonneg hnonneg hunit.le), Nat.lt_floor_add_one _⟩

section Grids

variable {value : Fraction} {interval : Interval} {unit : Int} {n : Nat}

theorem onGrid?_eq_some (h : onGrid? value interval unit = some n) :
    interval.contains (.ofDecimal n unit) = true := by
  unfold onGrid? at h
  dsimp only at h
  split at h
  · rename_i hboth
    obtain ⟨hbelow, habove⟩ := Bool.and_eq_true_iff.mp hboth
    split_ifs at h <;> cases h <;> assumption
  · split_ifs at h <;> cases h <;> assumption

theorem onGrid?_eq_none (h : onGrid? value interval unit = none) :
    ¬interval.contains (.ofDecimal (value.shift unit).floor unit) = true ∧
      ¬interval.contains (.ofDecimal ((value.shift unit).floor + 1) unit) = true := by
  unfold onGrid? at h
  dsimp only at h
  split at h
  · split_ifs at h
  · split_ifs at h with hbelow habove
    exact ⟨hbelow, habove⟩

/-- The search ends on the first grid on which something is found. -/
theorem contains_searchGrids {budget : Nat} {i : Nat} (hi : i < budget)
    (h : (onGrid? value interval (unit - i)).isSome) :
    interval.contains (.ofDecimal (searchGrids value interval budget unit).1
      (searchGrids value interval budget unit).2) = true := by
  induction budget generalizing unit i with
  | zero => omega
  | succ budget ih =>
    rw [searchGrids]
    cases hfound : onGrid? value interval unit with
    | some n => exact onGrid?_eq_some hfound
    | none =>
      cases i with
      | zero => simp [hfound] at h
      | succ i =>
        refine ih (i := i) (by omega) ?_
        rwa [Int.sub_sub, add_comm (1 : Int), ← Nat.cast_succ]

end Grids

section Shortest

variable {m : Nat} {e : Int}

theorem contains_of_lt {a : Fraction} (ha : 0 < a.denominator)
    (hlow : (roundingInterval m e).low.value < a.value)
    (hhigh : a.value < (roundingInterval m e).high.value) :
    (roundingInterval m e).contains a = true := by
  rw [contains_iff ha]
  split_ifs
  · exact ⟨hlow.le, hhigh.le⟩
  · exact ⟨hlow, hhigh⟩

/-- The interval lies between two fractions that are not in it, on either side of the number. -/
theorem between_of_not_contains {a b : Fraction} (hm : 0 < m) (hda : 0 < a.denominator)
    (hdb : 0 < b.denominator) (ha : ¬(roundingInterval m e).contains a = true)
    (hb : ¬(roundingInterval m e).contains b = true) (hle : a.value ≤ m * 2 ^ e)
    (hge : m * 2 ^ e ≤ b.value) :
    a.value ≤ (roundingInterval m e).low.value ∧ (roundingInterval m e).high.value ≤ b.value := by
  have hunit : (0 : ℚ) < 2 ^ e := by positivity
  have hlow : (roundingInterval m e).low.value < m * 2 ^ e := by
    rw [value_low hm]
    split_ifs <;> linarith
  have hhigh : m * 2 ^ e < (roundingInterval m e).high.value := by
    rw [value_high]
    linarith
  exact ⟨not_lt.mp fun h => ha (contains_of_lt hda h (hle.trans_lt hhigh)),
    not_lt.mp fun h => hb (contains_of_lt hdb (hlow.trans_le hge) h)⟩

/-- The interval is so wide that one of the neighbours with seventeen digits lies in it. -/
theorem contains_neighbour (hm : 0 < m) (hfull : m < fullBound) :
    let value := Fraction.ofScaled m e
    let unit := pointPosition value - 17
    (roundingInterval m e).contains (.ofDecimal (value.shift unit).floor unit) = true ∨
      (roundingInterval m e).contains (.ofDecimal ((value.shift unit).floor + 1) unit) = true := by
  intro value unit
  have hunit : (0 : ℚ) < 10 ^ unit := by positivity
  have hscale : (0 : ℚ) < 2 ^ e := by positivity
  have hmq : (0 : ℚ) < m := by exact_mod_cast hm
  have hvalue : value.value = m * 2 ^ e := Fraction.value_ofScaled m e
  have hnumerator : 0 < value.numerator := by
    by_contra h0
    have hzero : value.value = 0 := by simp [Fraction.value, Nat.eq_zero_of_not_pos h0]
    have hpos : (0 : ℚ) < m * 2 ^ e := by positivity
    exact hpos.ne' (hvalue ▸ hzero)
  have hlead : (10 : ℚ) ^ 16 * 10 ^ unit ≤ m * 2 ^ e := by
    have hpoint := (pointPosition_spec hnumerator (Fraction.denominator_ofScaled_pos m e)).1
    rw [← hvalue, ← zpow_natCast, ← zpow_add₀ (by norm_num)]
    convert hpoint using 2
    change (16 : Int) + (pointPosition value - 17) = _
    omega
  obtain ⟨hbelow, habove⟩ := Fraction.floor_shift_spec value unit
  rw [hvalue] at hbelow habove
  by_contra hnone
  obtain ⟨hb, ha⟩ := not_or.mp hnone
  -- The two neighbours would be too close to each other for the interval between them.
  obtain ⟨hlow, hhigh⟩ := between_of_not_contains hm (Fraction.denominator_ofDecimal_pos _ _)
    (Fraction.denominator_ofDecimal_pos _ _) hb ha (by rwa [Fraction.value_ofDecimal])
    (by rw [Fraction.value_ofDecimal, Nat.cast_add_one]; exact habove.le)
  rw [Fraction.value_ofDecimal, value_low hm] at hlow
  rw [Fraction.value_ofDecimal, value_high, Nat.cast_add_one] at hhigh
  split_ifs at hlow with hleast
  · have hmin : (m : ℚ) = 2 ^ 52 := by
      rw [hleast.1, leastFull_eq]
      norm_num
    rw [hmin] at hlow hhigh hlead
    linarith
  · have hmax : (m : ℚ) < 2 ^ 53 := by
      rw [fullBound_eq] at hfull
      exact_mod_cast hfull
    have hprod : (m * 2 ^ e : ℚ) < 2 ^ 53 * 2 ^ e := by gcongr
    linarith

/-- The digits that are written, before zeros at their end are dropped, round to the number. -/
theorem roundsTo_search (hm : 0 < m) (hfull : m < fullBound) {n : Nat} {unit : Int}
    (h : searchGrids (.ofScaled m e) (roundingInterval m e) 17
      (pointPosition (.ofScaled m e) - 1) = (n, unit)) : RoundsTo m e (n * 10 ^ unit) := by
  have hfound : (onGrid? (.ofScaled m e) (roundingInterval m e)
      (pointPosition (.ofScaled m e) - 1 - (16 : Nat))).isSome := by
    by_contra hnone
    rw [Bool.not_eq_true, Option.isSome_eq_false_iff, Option.isNone_iff_eq_none] at hnone
    obtain ⟨hb, ha⟩ := onGrid?_eq_none hnone
    rw [Int.sub_sub] at hb ha
    exact (contains_neighbour hm hfull).elim hb ha
  have hcontains := contains_searchGrids (show 16 < 17 by decide) hfound
  rw [h] at hcontains
  have := roundsTo_of_contains hm (Fraction.denominator_ofDecimal_pos _ _) hcontains
  rwa [Fraction.value_ofDecimal] at this

end Shortest

end Flowchart.Binary64
