import Flowchart.Number.Shortest
import Flowchart.Proofs.Number.Whole
import Mathlib.Algebra.Order.Field.Power
import Mathlib.Algebra.Order.Floor.Semifield
import Mathlib.Data.Rat.Floor
import Mathlib.Tactic.FieldSimp
import Mathlib.Tactic.Positivity

/-! Rounding to nearest: every fraction in the rounding interval of a number is rounded to this number.
-/
namespace Flowchart.Binary64

section Powers

variable {b : Nat} {e : Int}

theorem cast_pow_toNat (he : 0 ≤ e) : ((Nat.pow b e.toNat : Nat) : ℚ) = (b : ℚ) ^ e := by
  rw [← Int.toNat_of_nonneg he, zpow_natCast, Int.toNat_natCast]
  exact Nat.cast_pow b _

theorem cast_pow_toNat_neg (he : ¬0 ≤ e) : ((Nat.pow b (-e).toNat : Nat) : ℚ) = ((b : ℚ) ^ e)⁻¹ := by
  rw [cast_pow_toNat (by omega), zpow_neg]

theorem between_zpow_div {c x y : ℚ} {k l : Int} (hc : 0 < c) (hxl : c ^ k ≤ x)
    (hxh : x < c ^ (k + 1)) (hyl : c ^ l ≤ y) (hyh : y < c ^ (l + 1)) :
    c ^ (k - l - 1) < x / y ∧ x / y < c ^ (k - l + 1) := by
  have hy : 0 < y := (zpow_pos hc l).trans_le hyl
  constructor
  · rw [lt_div_iff₀ hy]
    calc c ^ (k - l - 1) * y < c ^ (k - l - 1) * c ^ (l + 1) :=
          mul_lt_mul_of_pos_left hyh (zpow_pos hc _)
      _ = c ^ k := by
          rw [← zpow_add₀ hc.ne']
          congr 1
          omega
      _ ≤ x := hxl
  · rw [div_lt_iff₀ hy]
    calc x < c ^ (k + 1) := hxh
      _ = c ^ (k - l + 1) * c ^ l := by
          rw [← zpow_add₀ hc.ne']
          congr 1
          omega
      _ ≤ c ^ (k - l + 1) * y := mul_le_mul_of_nonneg_left hyl (zpow_pos hc _).le

end Powers

section Quotient

variable {n d m : Nat} {k : Int}

/-- A whole number is the rounded quotient if the quotient is at most a half away, and less if the
number is odd. -/
theorem roundQuotient_eq (hd : 0 < d) (hlow : (m : ℚ) - 1 / 2 ≤ n / d)
    (hhigh : (n / d : ℚ) ≤ m + 1 / 2)
    (hodd : m % 2 = 1 → (m : ℚ) - 1 / 2 < n / d ∧ (n / d : ℚ) < m + 1 / 2) :
    roundQuotient n d = m := by
  have hdq : (0 : ℚ) < d := by exact_mod_cast hd
  have hlow : 2 * (m * d) ≤ 2 * n + d := by
    rw [le_div_iff₀ hdq] at hlow
    have : (2 * (m * d) : ℚ) ≤ 2 * n + d := by linarith
    exact_mod_cast this
  have hhigh : 2 * n ≤ 2 * (m * d) + d := by
    rw [div_le_iff₀ hdq] at hhigh
    have : (2 * n : ℚ) ≤ 2 * (m * d) + d := by linarith
    exact_mod_cast this
  have hodd : m % 2 = 1 → 2 * (m * d) < 2 * n + d ∧ 2 * n < 2 * (m * d) + d := by
    intro hm
    obtain ⟨hl, hh⟩ := hodd hm
    rw [lt_div_iff₀ hdq] at hl
    rw [div_lt_iff₀ hdq] at hh
    have hl : (2 * (m * d) : ℚ) < 2 * n + d := by linarith
    have hh : (2 * n : ℚ) < 2 * (m * d) + d := by linarith
    exact ⟨by exact_mod_cast hl, by exact_mod_cast hh⟩
  have hdiv := Nat.div_add_mod' n d
  have hmod := Nat.mod_lt n hd
  unfold roundQuotient
  dsimp only
  generalize n / d = q at *
  generalize n % d = r at *
  have hle : q ≤ m := by
    by_contra hlt
    have hprod := Nat.mul_le_mul_right d (not_le.mp hlt)
    rw [Nat.succ_mul] at hprod
    omega
  have hge : m ≤ q + 1 := by
    by_contra hlt
    have hprod := Nat.mul_le_mul_right d (not_le.mp hlt)
    rw [Nat.succ_mul, Nat.succ_mul] at hprod
    omega
  -- The number is the quotient or the next one, and the remainder says which.
  obtain rfl | rfl : m = q ∨ m = q + 1 := by omega
  · split_ifs <;> omega
  · rw [Nat.add_one_mul q d] at hlow hhigh hodd
    split_ifs <;> omega

theorem log2_spec (hn : 0 < n) :
    (2 : ℚ) ^ (n.log2 : Int) ≤ n ∧ (n : ℚ) < 2 ^ ((n.log2 : Int) + 1) := by
  obtain ⟨hl, hh⟩ := (Nat.log2_eq_iff hn.ne').mp rfl
  constructor
  · rw [zpow_natCast]
    exact_mod_cast hl
  · rw [← Nat.cast_succ, zpow_natCast]
    exact_mod_cast hh

theorem floorLog2_spec (hn : 0 < n) (hd : 0 < d) :
    (2 : ℚ) ^ floorLog2 n d ≤ n / d ∧ (n / d : ℚ) < 2 ^ (floorLog2 n d + 1) := by
  have hdq : (0 : ℚ) < d := by exact_mod_cast hd
  obtain ⟨hnl, hnh⟩ := log2_spec hn
  obtain ⟨hdl, hdh⟩ := log2_spec hd
  obtain ⟨hbelow, habove⟩ := between_zpow_div two_pos hnl hnh hdl hdh
  unfold floorLog2
  dsimp only
  generalize (n.log2 : Int) - d.log2 = guess at *
  have hfits : (if 0 ≤ guess then d * Nat.pow 2 guess.toNat ≤ n
      else d ≤ n * Nat.pow 2 (-guess).toNat) ↔ (2 : ℚ) ^ guess ≤ n / d := by
    have hscale : (0 : ℚ) < 2 ^ guess := by positivity
    rw [le_div_iff₀ hdq]
    split_ifs with h
    · rw [← Nat.cast_le (α := ℚ), Nat.cast_mul, cast_pow_toNat h, mul_comm]
      rfl
    · rw [← Nat.cast_le (α := ℚ), Nat.cast_mul, cast_pow_toNat_neg h, ← div_eq_mul_inv,
        le_div_iff₀ (by exact_mod_cast hscale), mul_comm]
      rfl
  by_cases h : (2 : ℚ) ^ guess ≤ n / d
  · rw [if_pos (hfits.mpr h)]
    exact ⟨h, habove⟩
  · rw [if_neg (fun hf => h (hfits.mp hf)), Int.sub_add_cancel]
    exact ⟨hbelow.le, not_le.mp h⟩

theorem floorLog2_eq (hn : 0 < n) (hd : 0 < d) (hlow : (2 : ℚ) ^ k ≤ n / d)
    (hhigh : (n / d : ℚ) < 2 ^ (k + 1)) : floorLog2 n d = k := by
  obtain ⟨hl, hh⟩ := floorLog2_spec hn hd
  have habove := (zpow_lt_zpow_iff_right₀ (one_lt_two (α := ℚ))).mp (hl.trans_lt hhigh)
  have hbelow := (zpow_lt_zpow_iff_right₀ (one_lt_two (α := ℚ))).mp (hlow.trans_lt hh)
  omega

theorem roundQuotient_scaled (hd : 0 < d) (hlow : ((m : ℚ) - 1 / 2) * 2 ^ k ≤ n / d)
    (hhigh : (n / d : ℚ) ≤ (m + 1 / 2) * 2 ^ k)
    (hodd : m % 2 = 1 → ((m : ℚ) - 1 / 2) * 2 ^ k < n / d ∧ (n / d : ℚ) < (m + 1 / 2) * 2 ^ k) :
    (if 0 ≤ k then roundQuotient n (d * Nat.pow 2 k.toNat)
      else roundQuotient (n * Nat.pow 2 (-k).toNat) d) = m := by
  have hunit : (0 : ℚ) < 2 ^ k := by positivity
  rw [← le_div_iff₀ hunit] at hlow
  rw [← div_le_iff₀ hunit] at hhigh
  rw [← lt_div_iff₀ hunit, ← div_lt_iff₀ hunit] at hodd
  split_ifs with hk
  · have hvalue : (n : ℚ) / ((d * Nat.pow 2 k.toNat : Nat) : ℚ) = n / d / 2 ^ k := by
      rw [Nat.cast_mul, cast_pow_toNat hk, Nat.cast_ofNat, div_div]
    exact roundQuotient_eq (Nat.mul_pos hd (Nat.pow_pos two_pos)) (hvalue ▸ hlow) (hvalue ▸ hhigh)
      (hvalue ▸ hodd)
  · have hvalue : ((n * Nat.pow 2 (-k).toNat : Nat) : ℚ) / d = n / d / 2 ^ k := by
      rw [Nat.cast_mul, cast_pow_toNat_neg hk, Nat.cast_ofNat, ← div_eq_mul_inv, div_right_comm]
    exact roundQuotient_eq hd (hvalue ▸ hlow) (hvalue ▸ hhigh) (hvalue ▸ hodd)

end Quotient

/-- A fraction that is nearest to `m · 2 ^ e`, or half-way and `m` is even. Below a power of two the
neighbours are half as far. -/
structure RoundsTo (m : Nat) (e : Int) (r : ℚ) : Prop where
  low : ((m : ℚ) - 1 / 2) * 2 ^ e ≤ r
  high : r ≤ (m + 1 / 2) * 2 ^ e
  odd : m % 2 = 1 → ((m : ℚ) - 1 / 2) * 2 ^ e < r ∧ r < (m + 1 / 2) * 2 ^ e
  least : m = leastFull → -1074 < e → ((m : ℚ) - 1 / 4) * 2 ^ e ≤ r

section Rounding

variable {n d m : Nat} {e k : Int} {r : ℚ}

theorem pow_add_natCast (e : Int) (i : Nat) : (2 : ℚ) ^ (e + i) = 2 ^ i * 2 ^ e := by
  rw [zpow_add₀ two_ne_zero, zpow_natCast, mul_comm]

theorem RoundsTo.lt_of_lt_fullBound (h : RoundsTo m e r) (hm : m < fullBound) :
    r < 2 ^ (e + 53) := by
  have hmq : (m : ℚ) + 1 ≤ 2 ^ 53 := by
    rw [fullBound_eq] at hm
    exact_mod_cast hm
  calc r ≤ (m + 1 / 2) * 2 ^ e := h.high
    _ < 2 ^ 53 * 2 ^ e := by
      gcongr
      linarith
    _ = 2 ^ (e + 53) := (pow_add_natCast e 53).symm

theorem RoundsTo.eq_leastFull (h : RoundsTo m e r) (hm : leastFull ≤ m) (hr : r < 2 ^ (e + 52)) :
    m = leastFull := by
  by_contra hne
  have hmq : (2 : ℚ) ^ 52 + 1 ≤ m := by
    have : 2 ^ 52 + 1 ≤ m := by
      rw [leastFull_eq] at hm hne
      omega
    exact_mod_cast this
  refine absurd h.low (not_le.mpr (hr.trans ?_))
  rw [show e + 52 = e + (52 : Nat) from rfl, pow_add_natCast]
  gcongr
  linarith

/-- The magnitude of a quotient tells its exponent, and rounding in that unit its significand. -/
theorem ofQuotient_eq_pack (negative : Bool) (hn : 0 < n)
    (hk : max (floorLog2 n d - 52) (-1074) = k)
    (hm : (if 0 ≤ k then roundQuotient n (d * Nat.pow 2 k.toNat)
      else roundQuotient (n * Nat.pow 2 (-k).toNat) d) = m) :
    ofQuotient negative n d =
      if m = fullBound then pack negative leastFull (k + 1) else pack negative m k := by
  subst hk
  subst hm
  rw [ofQuotient, if_neg hn.ne']

/-- Right below a power of two the unit is half as large, and rounding leads up to the power. -/
theorem ofQuotient_of_lt (negative : Bool) (hn : 0 < n) (hd : 0 < d) (he : -1074 < e)
    (hlow : ((leastFull : ℚ) - 1 / 4) * 2 ^ e ≤ n / d) (hhigh : (n / d : ℚ) < 2 ^ (e + 52)) :
    ofQuotient negative n d = pack negative leastFull e := by
  have hleast : (leastFull : ℚ) = 2 ^ 52 := by
    rw [leastFull_eq]
    norm_num
  have hfull : (fullBound : ℚ) = 2 ^ 53 := by
    rw [fullBound_eq]
    norm_num
  have hhalf : (2 : ℚ) ^ e = 2 * 2 ^ (e - 1) := by
    rw [← zpow_one_add₀ two_ne_zero]
    congr 1
    omega
  have hunit : (0 : ℚ) < 2 ^ (e - 1) := by positivity
  rw [hleast, hhalf] at hlow
  rw [show e + 52 = e + (52 : Nat) from rfl, pow_add_natCast, hhalf] at hhigh
  have hlog : floorLog2 n d = e + 51 := by
    refine floorLog2_eq hn hd ?_ ?_
    · rw [show e + 51 = e - 1 + (52 : Nat) by omega, pow_add_natCast]
      linarith
    · rw [show e + 51 + 1 = e - 1 + (53 : Nat) by omega, pow_add_natCast]
      linarith
  have hround : (if 0 ≤ e - 1 then roundQuotient n (d * Nat.pow 2 (e - 1).toNat)
      else roundQuotient (n * Nat.pow 2 (-(e - 1)).toNat) d) = fullBound := by
    refine roundQuotient_scaled hd ?_ ?_ fun hodd => absurd hodd (by decide)
    · rw [hfull]
      linarith
    · rw [hfull]
      linarith
  rw [ofQuotient_eq_pack negative hn (k := e - 1) (by omega) hround, if_pos rfl, Int.sub_add_cancel]

/-- A quotient is rounded to the number that it is nearest to. -/
theorem ofQuotient_of_roundsTo (negative : Bool) (hn : 0 < n) (hd : 0 < d) (hm : m < fullBound)
    (he : -1074 ≤ e) (hfull : leastFull ≤ m ∨ e = -1074) (h : RoundsTo m e (n / d)) :
    ofQuotient negative n d = pack negative m e := by
  have hround := roundQuotient_scaled hd h.low h.high h.odd
  have hbelow := h.lt_of_lt_fullBound hm
  by_cases hlarge : (2 : ℚ) ^ (e + 52) ≤ n / d
  · have hlog : floorLog2 n d = e + 52 := floorLog2_eq hn hd hlarge (by rwa [add_assoc])
    rw [ofQuotient_eq_pack negative hn (by omega) hround, if_neg hm.ne]
  have hsmall := not_le.mp hlarge
  by_cases hleast : e = -1074
  · have hlog : floorLog2 n d < e + 52 := by
      have hspec := (floorLog2_spec hn hd).1.trans_lt hsmall
      exact (zpow_lt_zpow_iff_right₀ (one_lt_two (α := ℚ))).mp hspec
    rw [ofQuotient_eq_pack negative hn (by omega) hround, if_neg hm.ne]
  · obtain rfl := h.eq_leastFull (hfull.resolve_right hleast) hsmall
    exact ofQuotient_of_lt negative hn hd (by omega) (h.least rfl (by omega)) hsmall

end Rounding

namespace Fraction

def value (a : Fraction) : ℚ :=
  a.numerator / a.denominator

variable {a b : Fraction} {n : Nat} {e : Int}

theorem denominator_ofScaled_pos (n : Nat) (e : Int) : 0 < (ofScaled n e).denominator := by
  unfold ofScaled
  split_ifs
  · exact one_pos
  · exact Nat.pow_pos two_pos

theorem denominator_shift_pos (ha : 0 < a.denominator) (e : Int) :
    0 < (a.shift e).denominator := by
  unfold shift
  split_ifs
  · exact Nat.mul_pos ha (Nat.pow_pos (by decide))
  · exact ha

theorem denominator_ofDecimal_pos (n : Nat) (e : Int) : 0 < (ofDecimal n e).denominator :=
  denominator_shift_pos one_pos _

theorem value_ofScaled (n : Nat) (e : Int) : (ofScaled n e).value = n * 2 ^ e := by
  unfold ofScaled value
  split_ifs with he
  · rw [Nat.cast_mul, cast_pow_toNat he, Nat.cast_one, div_one, Nat.cast_ofNat]
  · rw [cast_pow_toNat_neg he, div_inv_eq_mul, Nat.cast_ofNat]

theorem value_shift (a : Fraction) (e : Int) : (a.shift e).value = a.value / 10 ^ e := by
  unfold shift value
  split_ifs with he
  · rw [Nat.cast_mul, cast_pow_toNat he, div_div, Nat.cast_ofNat]
  · rw [Nat.cast_mul, cast_pow_toNat_neg he, Nat.cast_ofNat, ← div_eq_mul_inv, div_right_comm]

theorem value_ofDecimal (n : Nat) (e : Int) : (ofDecimal n e).value = n * 10 ^ e := by
  rw [ofDecimal, value_shift, zpow_neg, div_inv_eq_mul, value, Nat.cast_one, div_one]

theorem le_iff (ha : 0 < a.denominator) (hb : 0 < b.denominator) :
    a.le b = true ↔ a.value ≤ b.value := by
  have haq : (0 : ℚ) < a.denominator := by exact_mod_cast ha
  have hbq : (0 : ℚ) < b.denominator := by exact_mod_cast hb
  rw [le, decide_eq_true_eq, value, value, div_le_div_iff₀ haq hbq]
  exact_mod_cast Iff.rfl

theorem lt_iff (ha : 0 < a.denominator) (hb : 0 < b.denominator) :
    a.lt b = true ↔ a.value < b.value := by
  have haq : (0 : ℚ) < a.denominator := by exact_mod_cast ha
  have hbq : (0 : ℚ) < b.denominator := by exact_mod_cast hb
  rw [lt, decide_eq_true_eq, value, value, div_lt_div_iff₀ haq hbq]
  exact_mod_cast Iff.rfl

theorem floor_eq (a : Fraction) : a.floor = ⌊a.value⌋₊ := by
  rw [floor, value, Nat.floor_div_eq_div]

end Fraction

section Interval

variable {m : Nat} {e : Int} {a : Fraction}

theorem value_high : (roundingInterval m e).high.value = (m + 1 / 2) * 2 ^ e := by
  have hhalf : (2 : ℚ) ^ e = 2 * 2 ^ (e - 1) := by
    rw [← zpow_one_add₀ two_ne_zero]
    congr 1
    omega
  rw [roundingInterval, Fraction.value_ofScaled, hhalf]
  push_cast
  ring

theorem value_low (hm : 0 < m) : (roundingInterval m e).low.value =
    (m - if m = leastFull ∧ -1074 < e then 1 / 4 else 1 / 2) * 2 ^ e := by
  rw [roundingInterval]
  split_ifs with h
  · have hquarter : (2 : ℚ) ^ e = 4 * 2 ^ (e - 2) := by
      rw [show (4 : ℚ) = 2 ^ (2 : Int) by norm_num, ← zpow_add₀ two_ne_zero]
      congr 1
      omega
    rw [Fraction.value_ofScaled, hquarter, Nat.cast_sub (by omega)]
    push_cast
    ring
  · have hhalf : (2 : ℚ) ^ e = 2 * 2 ^ (e - 1) := by
      rw [← zpow_one_add₀ two_ne_zero]
      congr 1
      omega
    rw [Fraction.value_ofScaled, hhalf, Nat.cast_sub (by omega)]
    push_cast
    ring

theorem denominator_low_pos : 0 < (roundingInterval m e).low.denominator := by
  rw [roundingInterval]
  split_ifs <;> exact Fraction.denominator_ofScaled_pos _ _

theorem denominator_high_pos : 0 < (roundingInterval m e).high.denominator :=
  Fraction.denominator_ofScaled_pos _ _

/-- The interval holds its ends exactly if the number is even. -/
theorem contains_iff (ha : 0 < a.denominator) : (roundingInterval m e).contains a = true ↔
    if m % 2 = 0 then
      (roundingInterval m e).low.value ≤ a.value ∧ a.value ≤ (roundingInterval m e).high.value
    else (roundingInterval m e).low.value < a.value ∧ a.value < (roundingInterval m e).high.value := by
  have hclosed : (roundingInterval m e).closed = true ↔ m % 2 = 0 := decide_eq_true_iff
  unfold Interval.contains
  by_cases hm : m % 2 = 0
  · rw [if_pos (hclosed.mpr hm), if_pos hm, Bool.and_eq_true,
      Fraction.le_iff denominator_low_pos ha, Fraction.le_iff ha denominator_high_pos]
  · rw [if_neg (fun hc => hm (hclosed.mp hc)), if_neg hm, Bool.and_eq_true,
      Fraction.lt_iff denominator_low_pos ha, Fraction.lt_iff ha denominator_high_pos]

/-- Whatever lies in the rounding interval of a number rounds to it. -/
theorem roundsTo_of_contains (hm : 0 < m) (ha : 0 < a.denominator)
    (h : (roundingInterval m e).contains a = true) : RoundsTo m e a.value := by
  have hunit : (0 : ℚ) < 2 ^ e := by positivity
  have hlow : ((m : ℚ) - 1 / 2) * 2 ^ e ≤ (roundingInterval m e).low.value := by
    rw [value_low hm]
    gcongr
    split_ifs <;> norm_num
  rw [contains_iff ha, value_high] at h
  have hclosed : (roundingInterval m e).low.value ≤ a.value ∧ a.value ≤ (m + 1 / 2) * 2 ^ e := by
    split_ifs at h
    · exact h
    · exact ⟨h.1.le, h.2.le⟩
  refine ⟨hlow.trans hclosed.1, hclosed.2, fun hodd => ?_, fun hfull he => ?_⟩
  · rw [if_neg (by omega)] at h
    exact ⟨hlow.trans_lt h.1, h.2⟩
  · have := hclosed.1
    rwa [value_low hm, if_pos ⟨hfull, he⟩] at this

end Interval

end Flowchart.Binary64
