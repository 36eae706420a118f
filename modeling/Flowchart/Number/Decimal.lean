import Flowchart.Text.Line

/-!
Decimal numerals: a sign, a whole coefficient and a power of ten.
-/
namespace Flowchart

structure Decimal where
  negative : Bool
  coefficient : Nat
  exponent : Int
deriving DecidableEq, Repr

namespace Decimal

/-- The leading digits of a text, in a given set of digits, with what follows them. -/
def takeDigits (digit? : Char → Option Nat) : List Char → List Nat × List Char
  | [] => ([], [])
  | c :: rest =>
    match digit? c with
    | some d => let (ds, tail) := takeDigits digit? rest; (d :: ds, tail)
    | none => ([], c :: rest)

/-- The number that digits spell, most significant first, after the number read so far. -/
def natOfDigits (soFar : Nat) (digits : List Nat) : Nat :=
  digits.foldl (fun n d => 10 * n + d) soFar

/-- An optional sign; true stands for minus. -/
def takeSign : List Char → Bool × List Char
  | '-' :: rest => (true, rest)
  | '+' :: rest => (false, rest)
  | s => (false, s)

/-- The exponent part `e` sign digits, which has to reach the end of the text. -/
def readExponent? (digit? : Char → Option Nat) : List Char → Option Int
  | [] => some 0
  | c :: rest =>
    if c = 'e' ∨ c = 'E' then
      let (negative, tail) := takeSign rest
      match takeDigits digit? tail with
      | ([], _) => none
      | (ds, []) => some (if negative then -(natOfDigits 0 ds : Int) else natOfDigits 0 ds)
      | (_, _ :: _) => none
    else none

/-- Reads digits with an optional point, at least one digit on one side of it, and an optional
exponent. -/
def readUnsigned? (digit? : Char → Option Nat) (s : List Char) : Option (Nat × Int) :=
  let (whole, afterWhole) := takeDigits digit? s
  let (fraction, tail) :=
    match afterWhole with
    | '.' :: rest => takeDigits digit? rest
    | rest => ([], rest)
  if whole.isEmpty && fraction.isEmpty then none
  else
    (readExponent? digit? tail).map fun e =>
      (natOfDigits 0 (whole ++ fraction), e - fraction.length)

/-- Reads a numeral with an optional sign that fills the whole text. -/
def read? (digit? : Char → Option Nat) (s : List Char) : Option Decimal :=
  let (negative, tail) := takeSign s
  (readUnsigned? digit? tail).map fun (coefficient, exponent) =>
    { negative, coefficient, exponent }

/-- Every low line of the text stands between two digits; `previous` tells whether a digit stands
right before the text. -/
def groupsDigits (isDigit : Char → Bool) (previous : Bool) : List Char → Bool
  | [] => true
  | '_' :: c :: rest => previous && isDigit c && groupsDigits isDigit true rest
  | ['_'] => false
  | c :: rest => groupsDigits isDigit (isDigit c) rest

end Decimal
end Flowchart
