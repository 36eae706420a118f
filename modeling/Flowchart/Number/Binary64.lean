import Flowchart.Number.Decimal

/-!
Floating-point numbers of 64 bits as exact values: a significand of at most 53 bits times a power
of two, the two infinities, and the undefined number. Zero has no sign.
-/
namespace Flowchart

/-- The number `2 ^ 52`, from which on whole numbers have 53 bits. -/
def Binary64.leastFull : Nat := 0x10000000000000

/-- The number `2 ^ 53`, below which whole numbers have at most 53 bits. -/
def Binary64.fullBound : Nat := 0x20000000000000

/-- The one form in which a finite number is kept: 53 significant bits, or fewer at the least
exponent. -/
def Binary64.IsCanonical (significand exponent : Int) : Prop :=
  significand.natAbs < fullBound ∧ -1074 ≤ exponent ∧ exponent ≤ 971 ∧
    (leastFull ≤ significand.natAbs ∨ exponent = -1074)

instance (significand exponent : Int) : Decidable (Binary64.IsCanonical significand exponent) := by
  unfold Binary64.IsCanonical; infer_instance

inductive Binary64
  | finite (significand exponent : Int) (canonical : Binary64.IsCanonical significand exponent)
  | infinite (negative : Bool)
  | undefined
deriving DecidableEq

namespace Binary64

def zero : Binary64 :=
  .finite 0 (-1074) (by decide)

instance : Inhabited Binary64 := ⟨zero⟩

/-- The quotient rounded to the nearest whole number, a half going to the even neighbour. -/
def roundQuotient (numerator denominator : Nat) : Nat :=
  let quotient := numerator / denominator
  let remainder := numerator % denominator
  if 2 * remainder < denominator then quotient
  else if denominator < 2 * remainder then quotient + 1
  else if quotient % 2 = 0 then quotient
  else quotient + 1

/-- The greatest `k` with `2 ^ k ≤ numerator / denominator`. -/
def floorLog2 (numerator denominator : Nat) : Int :=
  let guess := (numerator.log2 : Int) - denominator.log2
  let fits :=
    if 0 ≤ guess then denominator * Nat.pow 2 guess.toNat ≤ numerator
    else denominator ≤ numerator * Nat.pow 2 (-guess).toNat
  if fits then guess else guess - 1

def signed (negative : Bool) (magnitude : Nat) : Int :=
  if negative then -(magnitude : Int) else magnitude

/-- The number with the given significand and exponent; infinite if the exponent is too large. -/
def pack (negative : Bool) (magnitude : Nat) (exponent : Int) : Binary64 :=
  if h : IsCanonical (signed negative magnitude) exponent then .finite _ _ h
  else .infinite negative

/-- The number nearest to a quotient, the even significand winning a tie. -/
def ofQuotient (negative : Bool) (numerator denominator : Nat) : Binary64 :=
  if numerator = 0 then zero
  else
    let exponent := max (floorLog2 numerator denominator - 52) (-1074)
    let magnitude :=
      if 0 ≤ exponent then roundQuotient numerator (denominator * Nat.pow 2 exponent.toNat)
      else roundQuotient (numerator * Nat.pow 2 (-exponent).toNat) denominator
    if magnitude = fullBound then pack negative leastFull (exponent + 1)
    else pack negative magnitude exponent

def ofInt (n : Int) : Binary64 :=
  ofQuotient (n < 0) n.natAbs 1

instance (n : Nat) : OfNat Binary64 n := ⟨ofInt n⟩

/-- The number nearest to a multiple by a quotient. -/
def scaled (x : Binary64) (numerator denominator : Nat) : Binary64 :=
  match x with
  | .finite significand exponent _ =>
    let magnitude := significand.natAbs * numerator
    if 0 ≤ exponent then
      ofQuotient (significand < 0) (magnitude * Nat.pow 2 exponent.toNat) denominator
    else ofQuotient (significand < 0) magnitude (denominator * Nat.pow 2 (-exponent).toNat)
  | x => x

/-- The whole number nearest to a finite number, the even one winning a tie. -/
def nearestInt? : Binary64 → Option Int
  | .finite significand exponent _ =>
    if 0 ≤ exponent then some (significand * Nat.pow 2 exponent.toNat)
    else
      let unit := Nat.pow 2 (-exponent).toNat
      some (signed (significand < 0) (roundQuotient significand.natAbs unit))
  | _ => none

def decimalLength (n : Nat) : Nat :=
  (Nat.toDigits 10 n).length

/-- The number nearest to a decimal numeral. Numerals far outside the range are settled by their
order of magnitude alone. -/
def ofDecimal (d : Decimal) : Binary64 :=
  if d.coefficient = 0 then zero
  else
    let magnitude := (decimalLength d.coefficient : Int) + d.exponent
    if 400 < magnitude then .infinite d.negative
    else if magnitude < -400 then zero
    else if 0 ≤ d.exponent then ofQuotient d.negative (d.coefficient * Nat.pow 10 d.exponent.toNat) 1
    else ofQuotient d.negative d.coefficient (Nat.pow 10 (-d.exponent).toNat)

/-- The whole number that a number is, if it is one. -/
def toInt? : Binary64 → Option Int
  | .finite significand exponent _ =>
    if 0 ≤ exponent then some (significand * Nat.pow 2 exponent.toNat)
    else
      let unit := Nat.pow 2 (-exponent).toNat
      if significand % unit = 0 then some (significand / unit) else none
  | _ => none

def isFinite : Binary64 → Bool
  | .finite .. => true
  | _ => false

end Binary64
end Flowchart
