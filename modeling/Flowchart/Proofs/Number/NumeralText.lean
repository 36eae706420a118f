import Flowchart.Proofs.Number.Search
import Flowchart.Proofs.Number.Shortest

/-! Every number is read back from its text, and every size from its declaration: the digits that are
laid out spell a fraction that rounds to the number. -/
namespace Flowchart

open Text

namespace Decimal

variable {s tail : List Char} {e : Int}

/-- The number that a run of digits spells. -/
def spelled (s : List Char) : Nat :=
  natOfDigits 0 (s.map digitNat)

theorem natOfDigits_replicate (n k : Nat) : natOfDigits n (List.replicate k 0) = n * 10 ^ k := by
  induction k generalizing n with
  | zero => simp [natOfDigits]
  | succ k ih =>
    rw [List.replicate_succ]
    change natOfDigits (10 * n + 0) (List.replicate k 0) = _
    rw [ih]
    ring

theorem spelled_append_zeros (s : List Char) (k : Nat) :
    spelled (s ++ List.replicate k '0') = spelled s * 10 ^ k := by
  rw [spelled, List.map_append, natOfDigits, List.foldl_append, List.map_replicate]
  exact natOfDigits_replicate _ k

theorem spelled_zeros_append (s : List Char) (k : Nat) :
    spelled (List.replicate k '0' ++ s) = spelled s := by
  have hzeros := natOfDigits_replicate 0 k
  rw [Nat.zero_mul] at hzeros
  rw [spelled, List.map_append, natOfDigits, List.foldl_append, List.map_replicate]
  change natOfDigits (natOfDigits 0 (List.replicate k 0)) _ = _
  rw [hzeros, spelled]

theorem takeDigits_append (hs : ∀ c ∈ s, c.isDigit = true)
    (ht : ∀ c ∈ tail.head?, digitValue? c = none) :
    takeDigits digitValue? (s ++ tail) = (s.map digitNat, tail) := by
  induction s with
  | nil =>
    cases tail with
    | nil => rfl
    | cons c tail =>
      rw [List.nil_append, takeDigits, ht c rfl]
      rfl
  | cons c s ih =>
    rw [List.cons_append, takeDigits, digitValue?_of_isDigit (hs c (by simp))]
    simp [ih fun d hd => hs d (by simp [hd])]

theorem head_of_readExponent? (h : readExponent? digitValue? tail = some e) :
    ∀ c ∈ tail.head?, digitValue? c = none ∧ c ≠ '.' := by
  intro c hc
  cases tail with
  | nil => cases hc
  | cons d tail =>
    obtain rfl : d = c := by simpa using hc
    rw [readExponent?] at h
    split_ifs at h with hletter
    rcases hletter with rfl | rfl <;> decide

theorem readUnsigned?_whole {whole : List Char} (hw : ∀ c ∈ whole, c.isDigit = true)
    (hne : whole ≠ []) (ht : readExponent? digitValue? tail = some e) :
    readUnsigned? digitValue? (whole ++ tail) = some (spelled whole, e) := by
  have hstop := head_of_readExponent? ht
  have htake := takeDigits_append hw fun c hc => (hstop c hc).1
  have hpoint : ∀ rest, tail ≠ '.' :: rest := by
    rintro rest rfl
    exact (hstop '.' rfl).2 rfl
  unfold readUnsigned?
  rw [htake]
  dsimp only
  split
  · rename_i rest
    exact absurd rfl (hpoint rest)
  · simp [hne, ht, spelled]

theorem readUnsigned?_point (whole fraction : List Char) (hw : ∀ c ∈ whole, c.isDigit = true)
    (hne : whole ≠ []) (hf : ∀ c ∈ fraction, c.isDigit = true)
    (ht : readExponent? digitValue? tail = some e) :
    readUnsigned? digitValue? (whole ++ '.' :: (fraction ++ tail)) =
      some (spelled (whole ++ fraction), e - fraction.length) := by
  have hwhole : takeDigits digitValue? (whole ++ '.' :: (fraction ++ tail)) = _ :=
    takeDigits_append hw fun c hc => by
      cases hc
      decide
  have hfraction := takeDigits_append hf fun c hc => (head_of_readExponent? ht c hc).1
  unfold readUnsigned?
  rw [hwhole]
  simp [hfraction, hne, ht, spelled]

end Decimal

namespace Binary64

open Decimal

theorem readExponent?_exponentText (e : Int) :
    readExponent? digitValue? ('e' :: exponentText e) = some e := by
  obtain ⟨ds, htext, hdigits, hne, hspelled⟩ : ∃ ds,
      exponentText e = (if e < 0 then '-' else '+') :: ds ∧
      (∀ c ∈ ds, c.isDigit = true) ∧ ds ≠ [] ∧ spelled ds = e.natAbs := by
    have hdigits : ∀ c ∈ Nat.toDigits 10 e.natAbs, c.isDigit = true :=
      fun c hc => Nat.isDigit_of_mem_toDigits (by omega) (by omega) hc
    refine ⟨_, rfl, ?_, ?_, ?_⟩ <;> split_ifs
    · exact List.forall_mem_cons.mpr ⟨by decide, hdigits⟩
    · exact hdigits
    · exact List.cons_ne_nil _ _
    · exact Nat.toDigits_ne_nil
    · exact (spelled_zeros_append _ 1).trans (natOfDigits_toDigits _)
    · exact natOfDigits_toDigits _
  obtain ⟨d, rest, rfl⟩ := List.exists_cons_of_ne_nil hne
  have htake : takeDigits digitValue? ((d :: rest) ++ []) = _ := takeDigits_append hdigits (by simp)
  rw [List.append_nil, List.map_cons] at htake
  rw [spelled, List.map_cons] at hspelled
  rw [htext, readExponent?, if_pos (.inl rfl)]
  split_ifs with hneg
  · simp only [takeSign, htake, hspelled, if_true]
    congr 1
    omega
  · simp only [takeSign, htake, hspelled, Bool.false_eq_true, if_false]
    congr 1
    omega

section LayOut

variable {style : Notation} {digits : List Char} {point : Int}

theorem head_layOut (hd : ∀ c ∈ digits, c.isDigit = true) (hne : digits ≠ []) :
    ∃ c rest, layOut style digits point = c :: rest ∧ c.isDigit = true := by
  obtain ⟨d, rest, rfl⟩ := List.exists_cons_of_ne_nil hne
  have hdigit := hd d (by simp)
  unfold layOut
  split_ifs with hpos hzero hlong
  · exact ⟨_, _, rfl, by decide⟩
  · exact ⟨_, _, rfl, hdigit⟩
  · obtain ⟨k, hk⟩ : ∃ k, point.toNat = k + 1 := ⟨point.toNat - 1, by omega⟩
    rw [hk]
    exact ⟨_, _, rfl, hdigit⟩
  · cases rest with
    | nil => exact ⟨_, _, rfl, hdigit⟩
    | cons c rest => exact ⟨_, _, rfl, hdigit⟩

/-- Wherever the point is put, the text spells the same fraction. -/
theorem readUnsigned?_layOut (hd : ∀ c ∈ digits, c.isDigit = true) (hne : digits ≠ []) :
    ∃ n e, readUnsigned? digitValue? (layOut style digits point) = some (n, e) ∧
      (n : ℚ) * 10 ^ e = spelled digits * 10 ^ (point - digits.length) := by
  have hten : (10 : ℚ) ≠ 0 := by norm_num
  have hend : readExponent? digitValue? [] = some 0 := rfl
  have hzeros : ∀ (k : Nat), ∀ c ∈ List.replicate k '0', c.isDigit = true := by
    intro k c hc
    rw [List.eq_of_mem_replicate hc]
    decide
  unfold layOut
  split_ifs with hpos hzero hlong
  · have hread := readUnsigned?_point ['0'] (List.replicate (-point).toNat '0' ++ digits) (by decide)
      (by decide) (fun c hc => (List.mem_append.mp hc).elim (hzeros _ c) (hd c)) hend
    rw [List.append_nil] at hread
    refine ⟨_, _, hread, ?_⟩
    rw [← List.append_assoc, List.singleton_append, ← List.replicate_succ, spelled_zeros_append,
      List.length_append, List.length_replicate]
    congr 2
    omega
  · have hread := readUnsigned?_point (digits ++ List.replicate (point.toNat - digits.length) '0')
      ['0'] (fun c hc => (List.mem_append.mp hc).elim (hd c) (hzeros _ c)) (by simp [hne])
      (by decide) hend
    refine ⟨_, _, hread, ?_⟩
    rw [List.append_assoc, ← List.replicate_succ', spelled_append_zeros, Nat.cast_mul, mul_assoc,
      Nat.cast_pow, Nat.cast_ofNat, ← zpow_natCast, ← zpow_add₀ hten]
    congr 2
    simp only [List.length_singleton]
    omega
  · have hread := readUnsigned?_point (digits.take point.toNat) (digits.drop point.toNat)
      (fun c hc => hd c (List.mem_of_mem_take hc)) (by simp [hne]; omega)
      (fun c hc => hd c (List.mem_of_mem_drop hc)) hend
    rw [List.append_nil] at hread
    refine ⟨_, _, hread, ?_⟩
    rw [List.take_append_drop, List.length_drop]
    congr 2
    omega
  · have hexponent := readExponent?_exponentText (point - 1)
    obtain ⟨d, rest, rfl⟩ := List.exists_cons_of_ne_nil hne
    have hlead : ∀ c ∈ [d], c.isDigit = true := fun c hc => hd c (by simp_all)
    cases rest with
    | nil => exact ⟨_, _, readUnsigned?_whole hlead (by simp) hexponent, rfl⟩
    | cons c rest =>
      refine ⟨_, _, readUnsigned?_point [d] (c :: rest) hlead (by simp)
        (fun b hb => hd b (by simp_all)) hexponent, ?_⟩
      rw [List.singleton_append]
      congr 2
      simp only [List.length_cons]
      omega

end LayOut

section Digits

variable {m : Nat} {e : Int}

theorem RoundsTo.pos {r : ℚ} (h : RoundsTo m e r) (hm : 0 < m) : 0 < r := by
  have hone : (1 : ℚ) ≤ m := by exact_mod_cast hm
  have hscale : (0 : ℚ) < 2 ^ e := by positivity
  have : (0 : ℚ) < (m - 1 / 2) * 2 ^ e := mul_pos (by linarith) hscale
  exact this.trans_le h.low

theorem eq_append_zeros (s : List Char) :
    ∃ k, s = (s.reverse.dropWhile (· == '0')).reverse ++ List.replicate k '0' := by
  refine ⟨(s.reverse.takeWhile (· == '0')).length, ?_⟩
  have hzeros : s.reverse.takeWhile (· == '0') =
      List.replicate (s.reverse.takeWhile (· == '0')).length '0' :=
    List.eq_replicate_of_mem fun c hc => by simpa using List.mem_takeWhile_imp hc
  have hsplit := congrArg List.reverse
    (List.takeWhile_append_dropWhile (p := (· == '0')) (l := s.reverse))
  rw [List.reverse_append, List.reverse_reverse, hzeros, List.reverse_replicate] at hsplit
  simpa using hsplit.symm

/-- The digits of a number with the position of their point round to the number. -/
theorem roundsTo_shortestDigits (hm : 0 < m) (hfull : m < fullBound) {digits : List Char}
    {point : Int}
    (h : shortestDigits m e = (digits, point)) :
    (∀ c ∈ digits, c.isDigit = true) ∧ digits ≠ [] ∧
      RoundsTo m e (spelled digits * 10 ^ (point - digits.length)) := by
  obtain ⟨n, unit, hsearch⟩ : ∃ n unit, searchGrids (.ofScaled m e) (roundingInterval m e) 17
      (pointPosition (.ofScaled m e) - 1) = (n, unit) := ⟨_, _, rfl⟩
  simp only [shortestDigits, hsearch, Prod.mk.injEq] at h
  obtain ⟨hdigits, hpoint⟩ := h
  obtain ⟨k, hk⟩ := eq_append_zeros (Nat.toDigits 10 n)
  rw [hdigits] at hk
  have hspelled : n = spelled digits * 10 ^ k := by
    rw [← spelled_append_zeros, ← hk, spelled, natOfDigits_toDigits]
  have hlength : (Nat.toDigits 10 n).length = digits.length + k := by
    rw [hk, List.length_append, List.length_replicate]
  have hvalue : (n * 10 ^ unit : ℚ) = spelled digits * 10 ^ (point - digits.length) := by
    rw [hspelled, Nat.cast_mul, mul_assoc, Nat.cast_pow, Nat.cast_ofNat, ← zpow_natCast,
      ← zpow_add₀ (by norm_num)]
    congr 2
    omega
  have hround := hvalue ▸ roundsTo_search hm hfull hsearch
  refine ⟨fun c hc => ?_, ?_, hround⟩
  · have hmem : c ∈ Nat.toDigits 10 n := by simp [hk, hc]
    exact Nat.isDigit_of_mem_toDigits (by omega) (by omega) hmem
  · rintro rfl
    have := hround.pos hm
    simp [spelled, natOfDigits] at this

theorem RoundsTo.magnitude {r : ℚ} (h : RoundsTo m e r) (hm : 0 < m) (hfull : m < fullBound)
    (hlow : -1074 ≤ e) (hhigh : e ≤ 971) : (10 : ℚ) ^ (-400 : Int) < r ∧ r < 10 ^ (400 : Int) := by
  constructor
  · have hone : (1 : ℚ) ≤ m := by exact_mod_cast hm
    have hscale : (2 : ℚ) ^ (-1074 : Int) ≤ 2 ^ e := zpow_le_zpow_right₀ one_le_two hlow
    have hleast : (10 : ℚ) ^ (-400 : Int) < 2 ^ (-1076 : Int) := by
      rw [zpow_neg, zpow_neg]
      refine inv_strictAnti₀ (by positivity) ?_
      have : 2 ^ 1076 < 10 ^ 400 := by decide +kernel
      exact_mod_cast this
    calc (10 : ℚ) ^ (-400 : Int) < 2 ^ (-1076 : Int) := hleast
      _ = 1 / 4 * 2 ^ (-1074 : Int) := by
        rw [show (-1076 : Int) = -2 + -1074 by rfl, zpow_add₀ two_ne_zero]
        norm_num
      _ ≤ (m - 1 / 2) * 2 ^ e :=
        mul_le_mul (by linarith) hscale (by positivity) (by linarith)
      _ ≤ r := h.low
  · have hmax : (m : ℚ) + 1 ≤ 2 ^ 53 := by
      rw [fullBound_eq] at hfull
      exact_mod_cast hfull
    have hscale : (2 : ℚ) ^ e ≤ 2 ^ (971 : Int) := zpow_le_zpow_right₀ one_le_two hhigh
    have hgreatest : (2 : ℚ) ^ 53 * 2 ^ (971 : Int) < 10 ^ (400 : Int) := by
      have : 2 ^ 53 * 2 ^ 971 < 10 ^ 400 := by decide +kernel
      exact_mod_cast this
    calc r ≤ (m + 1 / 2) * 2 ^ e := h.high
      _ ≤ 2 ^ 53 * 2 ^ (971 : Int) := by
        gcongr
        linarith
      _ < 10 ^ (400 : Int) := hgreatest

/-- A numeral is read as the number that it rounds to. -/
theorem ofDecimal_of_roundsTo {d : Decimal} (hm : 0 < m) (hfull : m < fullBound) (hlow : -1074 ≤ e)
    (hhigh : e ≤ 971) (hleast : leastFull ≤ m ∨ e = -1074)
    (h : RoundsTo m e (d.coefficient * 10 ^ d.exponent)) :
    ofDecimal d = pack d.negative m e := by
  have hc : 0 < d.coefficient := by
    by_contra h0
    have := h.pos hm
    simp [Nat.eq_zero_of_not_pos h0] at this
  have hten : (1 : ℚ) < 10 := by norm_num
  have hscale : (0 : ℚ) < 10 ^ d.exponent := by positivity
  obtain ⟨hl, hh⟩ := pow_decimalLength hc
  obtain ⟨hsmall, hlarge⟩ := h.magnitude hm hfull hlow hhigh
  have habove : ¬400 < (decimalLength d.coefficient : Int) + d.exponent := by
    have hpow : (10 : ℚ) ^ ((decimalLength d.coefficient : Int) - 1 + d.exponent) <
        10 ^ (400 : Int) := by
      rw [zpow_add₀ (by norm_num)]
      exact (mul_le_mul_of_nonneg_right hl hscale.le).trans_lt hlarge
    have := (zpow_lt_zpow_iff_right₀ hten).mp hpow
    omega
  have hbelow : ¬(decimalLength d.coefficient : Int) + d.exponent < -400 := by
    have hpow : (10 : ℚ) ^ (-400 : Int) <
        10 ^ ((decimalLength d.coefficient : Int) + d.exponent) := by
      rw [zpow_add₀ (by norm_num)]
      exact hsmall.trans (mul_lt_mul_of_pos_right hh hscale)
    have := (zpow_lt_zpow_iff_right₀ hten).mp hpow
    omega
  rw [ofDecimal, if_neg hc.ne']
  dsimp only
  rw [if_neg habove, if_neg hbelow]
  split_ifs with he
  · refine ofQuotient_of_roundsTo _ (Nat.mul_pos hc (Nat.pow_pos (by decide))) one_pos hfull hlow
      hleast ?_
    rwa [Nat.cast_mul, cast_pow_toNat he, Nat.cast_one, div_one]
  · refine ofQuotient_of_roundsTo _ hc (Nat.pow_pos (by decide)) hfull hlow hleast ?_
    rwa [cast_pow_toNat_neg he, div_inv_eq_mul]

end Digits

section Reading

variable {s : List Char}

theorem IsNumeralChar.ne_lowLine {c : Char} (h : IsNumeralChar c) : c ≠ '_' := by
  rintro rfl
  revert h
  unfold IsNumeralChar
  decide

theorem readLiberal?_of_read? {d : Decimal} (hs : ∀ c ∈ s, IsNumeralChar c)
    (h : Decimal.read? digitValue? s = some d) : readLiberal? s = some (ofDecimal d) := by
  have hgroups := groupsDigits_of_not_mem Text.isDigit (fun hm => (hs _ hm).ne_lowLine rfl) false
  have hfilter : s.filter (· != '_') = s := by
    rw [List.filter_eq_self]
    simpa using fun c hc => (hs c hc).ne_lowLine
  simp [readLiberal?, trimSpace_eq_self fun c hc => (hs c hc).fits.1, hgroups, hfilter, h]

/-- The digits of a finite number, with its sign, are read as the number. -/
theorem read?_of_finite {m e : Int} (hc : IsCanonical m e) (hm : m ≠ 0) :
    ∃ d, Decimal.read? digitValue? (toText (.finite m e hc)) = some d ∧
      ofDecimal d = .finite m e hc := by
  have ⟨hfull, hlow, hhigh, hleast⟩ := hc
  have hpos : 0 < m.natAbs := Int.natAbs_pos.mpr hm
  obtain ⟨digits, point, hshort⟩ : ∃ digits point, shortestDigits m.natAbs e = (digits, point) :=
    ⟨_, _, rfl⟩
  obtain ⟨hdigits, hne, hround⟩ := roundsTo_shortestDigits hpos hfull hshort
  obtain ⟨n, k, hread, hvalue⟩ : ∃ n k, readUnsigned? digitValue?
      (layOut standardNotation digits point) = some (n, k) ∧ (n : ℚ) * 10 ^ k = _ :=
    readUnsigned?_layOut hdigits hne
  have hsign : takeSign (toText (.finite m e hc)) =
      (decide (m < 0), layOut standardNotation digits point) := by
    rw [toText, if_neg hm, hshort]
    dsimp only
    split_ifs with hneg
    · simp [takeSign, hneg]
    · obtain ⟨c, rest, htext, hdigit⟩ : ∃ c rest, layOut standardNotation digits point = c :: rest ∧
          c.isDigit = true := head_layOut hdigits hne
      have hminus : c ≠ '-' := by
        rintro rfl
        exact absurd hdigit (by decide)
      have hplus : c ≠ '+' := by
        rintro rfl
        exact absurd hdigit (by decide)
      simp [takeSign, hneg, htext, hminus, hplus]
  refine ⟨⟨decide (m < 0), n, k⟩, ?_, ?_⟩
  · simp [Decimal.read?, hsign, hread]
  · have hsigned : signed (decide (m < 0)) m.natAbs = m := by
      unfold signed
      by_cases hneg : m < 0
      · simp only [hneg, decide_true, if_true]
        omega
      · simp only [hneg, decide_false, Bool.false_eq_true, if_false]
        omega
    rw [ofDecimal_of_roundsTo hpos hfull hlow hhigh hleast (hvalue.symm ▸ hround), pack]
    simp [hsigned, hc]

/-- Every number is read from its text. -/
theorem readLiberal?_toText (x : Binary64) : readLiberal? x.toText = some x := by
  cases x with
  | undefined => decide
  | infinite negative => cases negative <;> decide
  | finite m e hc =>
    by_cases hm : m = 0
    · subst hm
      obtain rfl : e = -1074 := hc.2.2.2.resolve_left (by decide)
      have hzero : readLiberal? ['0', '.', '0'] = some zero := by decide
      exact hzero
    · obtain ⟨d, hread, hd⟩ := read?_of_finite hc hm
      rw [readLiberal?_of_read? isNumeralChar_of_mem_toText hread, hd]

theorem readLiberal?_plainText (x : Binary64) : readLiberal? x.plainText = some x := by
  unfold plainText
  split
  · exact readLiberal?_intText ‹_›
  · exact readLiberal?_toText x

theorem IsNumeralChar.toLower {c : Char} (h : IsNumeralChar c) : c.toLower = c := by
  rcases h with h | h
  · exact toLower_of_isDigit h
  · revert c
    decide

end Reading

end Binary64

/-- Every size is read back from its text. -/
theorem Declaration.readSize?_sizeText (x : Binary64) :
    Declaration.readSize? (Diagram.sizeText x) = some x := by
  have hchars := Binary64.isNumeralChar_of_mem_plainText (x := x)
  have hlower : asciiLower (Diagram.sizeText x) = Diagram.sizeText x := by
    have hsame : ∀ c ∈ Diagram.sizeText x, c.toLower = c := by
      intro c hc
      rcases List.mem_append.mp hc with hc | hc
      · exact (hchars c hc).toLower
      · rcases List.mem_pair.mp hc with rfl | rfl <;> decide
    rw [asciiLower, List.map_congr_left hsame, List.map_id']
  have hunit : readSize?.dropUnit? (Diagram.sizeText x) = some x.plainText := by
    simp [readSize?.dropUnit?, Diagram.sizeText]
  have htrim : trim x.plainText = x.plainText :=
    trim_eq_self (fun c hc => (hchars c (List.mem_of_mem_head? hc)).fits.1)
      fun c hc => (hchars c (List.mem_of_getLast? hc)).fits.1
  simp only [readSize?, hlower, hunit, Option.getD_some, htrim, Binary64.readLiberal?_plainText]

end Flowchart
