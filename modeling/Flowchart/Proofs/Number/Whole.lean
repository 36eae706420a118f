import Flowchart.Diagram.Writer
import Flowchart.Grammar.Declaration
import Flowchart.Proofs.Text.Trim
import Mathlib.Data.Nat.Log
import Mathlib.Tactic.Linarith
import Mathlib.Tactic.NormNum
import Mathlib.Tactic.Ring

/-! Whole sizes are written with all their digits and read back as the same numbers, since rounding
changes nothing in a number that has the form in which numbers are kept. -/
namespace Flowchart

namespace Binary64

theorem leastFull_eq : leastFull = 2 ^ 52 := by decide

theorem fullBound_eq : fullBound = 2 ^ 53 := by decide

theorem roundQuotient_mul (n : Nat) {d : Nat} (hd : 0 < d) : roundQuotient (n * d) d = n := by
  unfold roundQuotient
  simp [Nat.mul_div_cancel _ hd, hd]

theorem floorLog2_one {n : Nat} (hn : n ≠ 0) : floorLog2 n 1 = n.log2 := by
  have hfits : 2 ^ n.log2 ≤ n := (Nat.le_log2 hn).mp le_rfl
  have hone : Nat.log2 1 = 0 := by decide
  simp [floorLog2, hone, hfits]

private theorem signed_eq {n m : Int} (h : n < 0 ↔ m < 0) :
    signed (decide (n < 0)) m.natAbs = m := by
  by_cases hm : m < 0
  · have : decide (n < 0) = true := by simpa using h.mpr hm
    simp only [signed, this, if_true]
    omega
  · have : decide (n < 0) = false := by simpa using fun hn => hm (h.mp hn)
    simp only [signed, this, Bool.false_eq_true, if_false]
    omega

private theorem log2_of_scaled {m k : Nat} (hl : 2 ^ 52 ≤ m) (hu : m < 2 ^ 53) :
    (m * 2 ^ k).log2 = 52 + k := by
  have hpos : 0 < 2 ^ k := by positivity
  rw [Nat.log2_eq_iff (by positivity)]
  constructor
  · rw [pow_add]
    exact Nat.mul_le_mul_right _ hl
  · rw [show 52 + k + 1 = 53 + k by omega, pow_add]
    exact Nat.mul_lt_mul_of_pos_right hu hpos

private theorem log2_of_unscaled {n k : Nat} (hn : n ≠ 0) (hl : 2 ^ 52 ≤ n * 2 ^ k)
    (hu : n * 2 ^ k < 2 ^ 53) : k ≤ 52 ∧ n.log2 = 52 - k := by
  have hpos : 0 < 2 ^ k := by positivity
  have hk : k ≤ 52 := by
    by_contra hk
    have h1 : 2 ^ 53 ≤ 2 ^ k := Nat.pow_le_pow_right (by omega) (by omega)
    have h2 : 2 ^ k ≤ n * 2 ^ k := Nat.le_mul_of_pos_left _ (Nat.pos_of_ne_zero hn)
    omega
  refine ⟨hk, (Nat.log2_eq_iff hn).mpr ⟨?_, ?_⟩⟩
  · apply Nat.le_of_mul_le_mul_right _ hpos
    rwa [← pow_add, Nat.sub_add_cancel hk]
  · apply Nat.lt_of_mul_lt_mul_right (a := 2 ^ k)
    rwa [← pow_add, show 52 - k + 1 + k = 53 by omega]

private theorem ofQuotient_eq {n m : Nat} {s e : Int} {negative : Bool} (hc : IsCanonical s e)
    (hs : signed negative m = s) (hn : n ≠ 0) (hm : m < fullBound)
    (he : max ((n.log2 : Int) - 52) (-1074) = e)
    (hr : (if 0 ≤ e then roundQuotient n (1 * Nat.pow 2 e.toNat)
      else roundQuotient (n * Nat.pow 2 (-e).toNat) 1) = m) :
    ofQuotient negative n 1 = .finite s e hc := by
  subst hs
  simp only [ofQuotient, hn, if_false, floorLog2_one hn, he, hr, Nat.ne_of_lt hm, pack, dif_pos hc]

private theorem mul_pow_neg_iff (s : Int) (k : Nat) : s * 2 ^ k < 0 ↔ s < 0 := by
  have hpow : (0 : Int) < 2 ^ k := by positivity
  constructor
  · intro h
    by_contra hs
    have := mul_nonneg (not_lt.mp hs) hpow.le
    omega
  · intro h
    exact mul_neg_of_neg_of_pos h hpow

private theorem natAbs_mul_pow (s : Int) (k : Nat) : (s * 2 ^ k).natAbs = s.natAbs * 2 ^ k := by
  simp [Int.natAbs_mul, Int.natAbs_pow]

private theorem ofInt_mul_pow {s e : Int} (hc : IsCanonical s e) (hs : s ≠ 0) (he : 0 ≤ e) :
    ofInt (s * 2 ^ e.toNat) = .finite s e hc := by
  have hl : 2 ^ 52 ≤ s.natAbs := leastFull_eq ▸ hc.2.2.2.resolve_right (by omega)
  have hu : s.natAbs < 2 ^ 53 := fullBound_eq ▸ hc.1
  rw [ofInt, natAbs_mul_pow]
  refine ofQuotient_eq (m := s.natAbs) hc (signed_eq (mul_pow_neg_iff s _)) (by positivity) hc.1 ?_ ?_
  · rw [log2_of_scaled hl hu]
    omega
  · rw [if_pos he, one_mul]
    exact roundQuotient_mul _ (by positivity)

private theorem ofInt_of_mul_pow {s e n : Int} (hc : IsCanonical s e) (hs : s ≠ 0) (he : e < 0)
    (hn : s = n * 2 ^ (-e).toNat) : ofInt n = .finite s e hc := by
  have hu : s.natAbs < 2 ^ 53 := fullBound_eq ▸ hc.1
  have habs : s.natAbs = n.natAbs * 2 ^ (-e).toNat := by rw [hn, natAbs_mul_pow]
  have hn0 : n.natAbs ≠ 0 := by
    rintro h0
    rw [h0, zero_mul] at habs
    omega
  have hl : 2 ^ 52 ≤ s.natAbs := by
    rcases hc.2.2.2 with hfull | hleast
    · exact leastFull_eq ▸ hfull
    · -- At the least exponent no whole number but zero has so few bits.
      have hlarge : 2 ^ 53 ≤ 2 ^ (-e).toNat := Nat.pow_le_pow_right (by omega) (by omega)
      have := Nat.le_mul_of_pos_left (2 ^ (-e).toNat) (Nat.pos_of_ne_zero hn0)
      omega
  obtain ⟨hk, hlog⟩ := log2_of_unscaled hn0 (habs ▸ hl) (habs ▸ hu)
  have hsign : n < 0 ↔ s < 0 := by rw [hn, mul_pow_neg_iff]
  rw [ofInt]
  refine ofQuotient_eq (m := s.natAbs) hc (signed_eq hsign) hn0 hc.1 ?_ ?_
  · rw [hlog]
    omega
  · rw [if_neg (by omega), habs]
    simpa using roundQuotient_mul (n.natAbs * 2 ^ (-e).toNat) one_pos

/-- Rounding a whole number that is a floating-point number gives that number. -/
theorem ofInt_of_toInt? {x : Binary64} {n : Int} (h : x.toInt? = some n) : ofInt n = x := by
  cases x with
  | infinite _ => cases h
  | undefined => cases h
  | finite s e hc =>
    rw [toInt?] at h
    by_cases hs : s = 0
    · subst hs
      have hn : n = 0 := by
        split_ifs at h <;> simpa using h.symm
      have he : e = -1074 := hc.2.2.2.resolve_left (by decide)
      subst hn he
      rfl
    · split_ifs at h with he
      · obtain rfl : s * 2 ^ e.toNat = n := by simpa using h
        exact ofInt_mul_pow hc hs he
      · obtain ⟨hmod, rfl⟩ : s % 2 ^ (-e).toNat = 0 ∧ s / 2 ^ (-e).toNat = n := by simpa using h
        have hdvd : (2 : Int) ^ (-e).toNat ∣ s := Int.dvd_of_emod_eq_zero hmod
        exact ofInt_of_mul_pow hc hs (by omega) (Int.ediv_mul_cancel hdvd).symm

/-- Below `2 ^ 53` every whole number is a floating-point number. -/
theorem toInt?_ofInt {n : Int} (h : n.natAbs < 2 ^ 53) : (ofInt n).toInt? = some n := by
  by_cases hn : n = 0
  · have hzero : ofInt 0 = zero := rfl
    rw [hn, hzero, zero, toInt?, if_neg (by decide)]
    simp only [Int.zero_emod, Int.zero_ediv, if_true]
  have hlog : n.natAbs.log2 ≤ 52 := Nat.le_of_lt_succ ((Nat.log2_lt (by omega)).mpr h)
  obtain ⟨k, hk⟩ := Nat.exists_eq_add_of_le hlog
  obtain ⟨hlow, hhigh⟩ := (Nat.log2_eq_iff (by omega)).mp (Eq.refl n.natAbs.log2)
  have hfull : leastFull ≤ n.natAbs * 2 ^ k := by
    rw [leastFull_eq, hk, pow_add]
    exact Nat.mul_le_mul_right _ hlow
  have hbound : n.natAbs * 2 ^ k < fullBound := by
    rw [fullBound_eq, show 53 = n.natAbs.log2 + 1 + k by omega, pow_add _ (_ + 1)]
    exact Nat.mul_lt_mul_of_pos_right hhigh (pow_pos two_pos _)
  have hc : IsCanonical (n * 2 ^ k) (-k) := by
    refine ⟨?_, by omega, by omega, .inl ?_⟩ <;> rwa [natAbs_mul_pow]
  have hwhole : (finite _ _ hc).toInt? = some n := by
    rw [toInt?]
    split_ifs with he
    · obtain rfl : k = 0 := by omega
      simp
    · simp
  rw [ofInt_of_toInt? hwhole]
  exact hwhole

/-- Whole floating-point numbers have at most 309 digits, well within what a numeral may have. -/
theorem decimalLength_of_toInt? {x : Binary64} {n : Int} (h : x.toInt? = some n) :
    decimalLength n.natAbs ≤ 400 := by
  have hlt : n.natAbs < 2 ^ 53 * 2 ^ 971 := by
    cases x with
    | infinite _ => cases h
    | undefined => cases h
    | finite s e hc =>
      have hu : s.natAbs < 2 ^ 53 := fullBound_eq ▸ hc.1
      rw [toInt?] at h
      split_ifs at h with he
      · obtain rfl : s * 2 ^ e.toNat = n := by simpa using h
        have hhigh := hc.2.2.1
        have hexp : e.toNat ≤ 971 := by omega
        have hle : 2 ^ e.toNat ≤ 2 ^ 971 := pow_le_pow_right₀ one_le_two hexp
        rw [natAbs_mul_pow]
        exact Nat.mul_lt_mul_of_lt_of_le hu hle (pow_pos two_pos _)
      · obtain ⟨-, rfl⟩ : s % 2 ^ (-e).toNat = 0 ∧ s / 2 ^ (-e).toNat = n := by simpa using h
        have hle : (s / 2 ^ (-e).toNat).natAbs ≤ s.natAbs := Int.natAbs_ediv_le_natAbs _ _
        exact hle.trans_lt (hu.trans_le (Nat.le_mul_of_pos_right _ (pow_pos two_pos _)))
  rw [decimalLength, Nat.length_toDigits_le_iff (by omega) (by omega)]
  exact hlt.trans (by decide +kernel)

end Binary64

open Text

def digitNat (c : Char) : Nat := c.toNat - 48

theorem isDigit_iff_toNat {c : Char} : c.isDigit = true ↔ 48 ≤ c.toNat ∧ c.toNat ≤ 57 := by
  simp only [Char.isDigit, Bool.and_eq_true, decide_eq_true_eq, ge_iff_le, UInt32.le_iff_toNat_le]
  rfl

theorem digitValue?_of_isDigit {c : Char} (h : c.isDigit = true) :
    digitValue? c = some (digitNat c) := by
  have hb := isDigit_iff_toNat.mp h
  have hfind : (zeroDigits.find? fun first => first ≤ c.toNat && c.toNat ≤ first + 9) = some 48 := by
    rw [zeroDigits, List.find?_cons_of_pos]
    simp only [Bool.and_eq_true, decide_eq_true_eq]
    omega
  rw [digitValue?, hfind]
  rfl

theorem isBlank_of_isDigit {c : Char} (h : c.isDigit = true) : isBlank c = false := by
  have hb := isDigit_iff_toNat.mp h
  simp only [isBlank, inRanges, blankRanges, List.any_cons, List.any_nil, Bool.or_false,
    Bool.or_eq_false_iff, Bool.and_eq_false_iff, decide_eq_false_iff_not]
  omega

theorem toLower_of_isDigit {c : Char} (h : c.isDigit = true) : c.toLower = c := by
  have hb := isDigit_iff_toNat.mp h
  unfold Char.toLower
  rw [dif_neg]
  simp only [ge_iff_le, UInt32.le_iff_toNat_le]
  change ¬(65 ≤ c.toNat ∧ c.toNat ≤ 90)
  omega

namespace Decimal

theorem takeDigits_of_isDigit {s : List Char} (h : ∀ c ∈ s, c.isDigit = true) :
    takeDigits digitValue? s = (s.map digitNat, []) := by
  induction s with
  | nil => rfl
  | cons c s ih =>
    rw [takeDigits, digitValue?_of_isDigit (h c (by simp))]
    simp [ih fun d hd => h d (by simp [hd])]

theorem natOfDigits_toDigits (n : Nat) : natOfDigits 0 ((Nat.toDigits 10 n).map digitNat) = n := by
  rw [natOfDigits, List.foldl_map]
  exact Nat.ofDigitChars_ten_toDigits

theorem groupsDigits_of_not_mem (isDigit : Char → Bool) {s : List Char} (h : '_' ∉ s)
    (previous : Bool) : groupsDigits isDigit previous s = true := by
  induction s generalizing previous with
  | nil => rfl
  | cons c s ih =>
    rw [List.mem_cons, not_or] at h
    rw [groupsDigits]
    · exact ih h.2 _
    · intro d rest hc
      simp [Ne.symm h.1] at hc
    · intro hc
      simp [Ne.symm h.1] at hc

theorem takeSign_intText (n : Int) :
    takeSign (Json.intText n) = (decide (n < 0), Nat.toDigits 10 n.natAbs) := by
  unfold Json.intText
  split_ifs with hn
  · simp [takeSign, hn]
  · cases hd : Nat.toDigits 10 n.natAbs with
    | nil => exact absurd hd Nat.toDigits_ne_nil
    | cons c rest =>
      have hc : c.isDigit = true :=
        Nat.isDigit_of_mem_toDigits (b := 10) (n := n.natAbs) (by omega) (by omega) (by simp [hd])
      have hminus : c ≠ '-' := by
        rintro rfl
        exact absurd hc (by decide)
      have hplus : c ≠ '+' := by
        rintro rfl
        exact absurd hc (by decide)
      simp [takeSign, hn, hminus, hplus]

theorem read?_intText (n : Int) :
    Decimal.read? digitValue? (Json.intText n) = some ⟨decide (n < 0), n.natAbs, 0⟩ := by
  have hdigit : ∀ c ∈ Nat.toDigits 10 n.natAbs, c.isDigit = true :=
    fun c hc => Nat.isDigit_of_mem_toDigits (by omega) (by omega) hc
  have hne : Nat.toDigits 10 n.natAbs ≠ [] := Nat.toDigits_ne_nil
  simp [Decimal.read?, takeSign_intText, readUnsigned?, takeDigits_of_isDigit hdigit, hne,
    readExponent?, natOfDigits_toDigits]

end Decimal

theorem Json.chars_intText (n : Int) : ∀ c ∈ Json.intText n, c = '-' ∨ c.isDigit = true := by
  intro c hc
  unfold Json.intText at hc
  rcases List.mem_append.mp hc with hc | hc
  · left
    split_ifs at hc <;> simp at hc
    exact hc
  · exact .inr (Nat.isDigit_of_mem_toDigits (by omega) (by omega) hc)

theorem Json.isBlank_of_mem_intText {n : Int} : ∀ c ∈ Json.intText n, isBlank c = false := by
  intro c hc
  rcases Json.chars_intText n c hc with rfl | hd
  · decide
  · exact isBlank_of_isDigit hd

namespace Binary64

theorem ofDecimal_of_toInt? {x : Binary64} {n : Int} (h : x.toInt? = some n) :
    ofDecimal ⟨decide (n < 0), n.natAbs, 0⟩ = x := by
  rw [← ofInt_of_toInt? h]
  by_cases hn : n = 0
  · subst hn
    rfl
  · have hlen := decimalLength_of_toInt? h
    have hhigh : ¬400 < decimalLength n.natAbs := by omega
    have hlow : ¬(decimalLength n.natAbs : Int) < -400 := by omega
    simp [ofDecimal, hn, hhigh, hlow, ofInt]

theorem readLiberal?_intText {x : Binary64} {n : Int} (h : x.toInt? = some n) :
    readLiberal? (Json.intText n) = some x := by
  have hlow : ∀ c ∈ Json.intText n, c ≠ '_' := by
    rintro c hc rfl
    rcases Json.chars_intText n _ hc with h | h <;> revert h <;> decide
  have hgroups := Decimal.groupsDigits_of_not_mem Text.isDigit
    (fun hm => hlow _ hm rfl) false
  have hfilter : (Json.intText n).filter (· != '_') = Json.intText n := by
    rw [List.filter_eq_self]
    simpa using hlow
  simp [readLiberal?, trimSpace_eq_self Json.isBlank_of_mem_intText, hgroups, hfilter,
    Decimal.read?_intText, ofDecimal_of_toInt? h]

end Binary64

end Flowchart
