import Flowchart.Number.Decimal

/-!
The limit on the digits of whole numerals. Longer ones are not read at all.
-/
namespace Flowchart

structure OversizedNumeral where
  digits : Nat
deriving DecidableEq, Repr

namespace OversizedNumeral

def limit : Nat := 4300

def message (numeral : OversizedNumeral) : String :=
  "Exceeds the limit (" ++ toString limit ++ " digits) for integer string conversion: value has " ++
    toString numeral.digits ++
    " digits; use sys.set_int_max_str_digits() to increase the limit"

end OversizedNumeral

/-- The number that digits spell; zeros in front count as digits. -/
def Decimal.wholeOfDigits (digits : List Nat) : Except OversizedNumeral Nat :=
  if OversizedNumeral.limit < digits.length then .error ⟨digits.length⟩
  else .ok (natOfDigits 0 digits)

end Flowchart
