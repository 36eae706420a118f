import Flowchart.Number.Binary64

/-!
The shortest decimal numeral that reads back as a given floating-point number, and of those the
nearest one.
-/
namespace Flowchart.Binary64

structure Fraction where
  numerator : Nat
  denominator : Nat

namespace Fraction

/-- The value `n · 2 ^ e`. -/
def ofScaled (n : Nat) (e : Int) : Fraction :=
  if 0 ≤ e then ⟨n * Nat.pow 2 e.toNat, 1⟩ else ⟨n, Nat.pow 2 (-e).toNat⟩

def le (a b : Fraction) : Bool :=
  a.numerator * b.denominator ≤ b.numerator * a.denominator

def lt (a b : Fraction) : Bool :=
  a.numerator * b.denominator < b.numerator * a.denominator

/-- The value divided by `10 ^ e`. -/
def shift (a : Fraction) (e : Int) : Fraction :=
  if 0 ≤ e then ⟨a.numerator, a.denominator * Nat.pow 10 e.toNat⟩
  else ⟨a.numerator * Nat.pow 10 (-e).toNat, a.denominator⟩

def floor (a : Fraction) : Nat :=
  a.numerator / a.denominator

/-- The value `n · 10 ^ e`. -/
def ofDecimal (n : Nat) (e : Int) : Fraction :=
  shift ⟨n, 1⟩ (-e)

end Fraction

/-- The fractions that round to one number: everything between two ends. -/
structure Interval where
  low : Fraction
  high : Fraction
  closed : Bool

def Interval.contains (i : Interval) (a : Fraction) : Bool :=
  if i.closed then i.low.le a && a.le i.high else i.low.lt a && a.lt i.high

/-- The fractions that round to `m · 2 ^ e`. Below a power of two the neighbours are half as far. -/
def roundingInterval (m : Nat) (e : Int) : Interval where
  low :=
    if m = leastFull ∧ -1074 < e then .ofScaled (4 * m - 1) (e - 2)
    else .ofScaled (2 * m - 1) (e - 1)
  high := .ofScaled (2 * m + 1) (e - 1)
  closed := m % 2 = 0

/-- The number of digits before the decimal point: the `p` with `10 ^ (p - 1) ≤ a < 10 ^ p`. -/
def pointPosition (a : Fraction) : Int :=
  let guess := (decimalLength a.numerator : Int) - decimalLength a.denominator
  if (Fraction.ofDecimal 1 guess).le a then guess + 1 else guess

/-- Tries the grid whose unit is `10 ^ unit`: of the two neighbours of the value on it, those that
read back, and of two the nearer one, the even one winning a tie. -/
def onGrid? (value : Fraction) (interval : Interval) (unit : Int) : Option Nat :=
  let scaled := value.shift unit
  let below := scaled.floor
  let belowFits := interval.contains (.ofDecimal below unit)
  let aboveFits := interval.contains (.ofDecimal (below + 1) unit)
  let remainder := scaled.numerator % scaled.denominator
  if belowFits && aboveFits then
    if 2 * remainder < scaled.denominator then some below
    else if scaled.denominator < 2 * remainder then some (below + 1)
    else if below % 2 = 0 then some below
    else some (below + 1)
  else if belowFits then some below
  else if aboveFits then some (below + 1)
  else none

/-- Tries finer and finer grids, one more digit each time. -/
def searchGrids (value : Fraction) (interval : Interval) : Nat → Int → Nat × Int
  | 0, unit => ((value.shift unit).floor, unit)
  | budget + 1, unit =>
    match onGrid? value interval unit with
    | some n => (n, unit)
    | none => searchGrids value interval budget (unit - 1)

/-- The digits of the shortest numeral and the position of its decimal point. -/
def shortestDigits (m : Nat) (e : Int) : List Char × Int :=
  let value := Fraction.ofScaled m e
  let (n, unit) := searchGrids value (roundingInterval m e) 17 (pointPosition value - 1)
  let digits := Nat.toDigits 10 n
  ((digits.reverse.dropWhile (· == '0')).reverse, digits.length + unit)

/-- How a floating-point number is written: positionally where the point stands at most so many
places to the left and right of the first digit, else with an exponent of at least two digits. -/
structure Notation where
  leastPoint : Int
  greatestPoint : Int

/-- The common notation: positional from `0.0001` up to sixteen digits before the point. -/
def standardNotation : Notation := ⟨-3, 16⟩

def exponentText (e : Int) : List Char :=
  let digits := Nat.toDigits 10 e.natAbs
  (if e < 0 then '-' else '+') :: (if digits.length < 2 then '0' :: digits else digits)

/-- Lays out digits around a decimal point; a whole number ends in `.0`. -/
def layOut (style : Notation) (digits : List Char) (point : Int) : List Char :=
  if style.leastPoint ≤ point ∧ point ≤ style.greatestPoint then
    if point ≤ 0 then '0' :: '.' :: (List.replicate (-point).toNat '0' ++ digits)
    else if digits.length ≤ point.toNat then
      digits ++ List.replicate (point.toNat - digits.length) '0' ++ ['.', '0']
    else digits.take point.toNat ++ '.' :: digits.drop point.toNat
  else
    let mantissa :=
      match digits with
      | [] => []
      | [d] => [d]
      | d :: rest => d :: '.' :: rest
    mantissa ++ 'e' :: exponentText (point - 1)

/-- The shortest text that reads back as the number. -/
def toText : Binary64 → List Char
  | .undefined => ['n', 'a', 'n']
  | .infinite false => ['i', 'n', 'f']
  | .infinite true => ['-', 'i', 'n', 'f']
  | .finite significand exponent _ =>
    if significand = 0 then ['0', '.', '0']
    else
      let (digits, point) := shortestDigits significand.natAbs exponent
      (if significand < 0 then ['-'] else []) ++ layOut standardNotation digits point

end Flowchart.Binary64
