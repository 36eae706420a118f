import Flowchart.Number.Binary64
import Flowchart.Text.Blank
import Flowchart.Text.Digit
import Flowchart.Text.Lowercase

/-!
Reading floating-point numbers from text: a liberal form that takes the digits of every script, and
a plain form with the digits 0 to 9.
-/
namespace Flowchart.Binary64

/-- The texts that name a number instead of spelling it: an infinity or the undefined number. -/
def readName? (s : List Char) : Option Binary64 :=
  let (negative, tail) := Decimal.takeSign s
  match String.ofList (Text.asciiLower tail) with
  | "inf" => some (.infinite negative)
  | "infinity" => some (.infinite negative)
  | "nan" => some .undefined
  | _ => none

def readPlain? (s : List Char) : Option Binary64 :=
  ((Decimal.read? Text.asciiDigitValue? s).map ofDecimal).or (readName? s)

/-- Liberal reading: white space around the number, digits of every script, and a low line between two
digits are allowed. -/
def readLiberal? (s : List Char) : Option Binary64 :=
  let s := Text.trimSpace s
  if Decimal.groupsDigits Text.isDigit false s then
    let s := s.filter (· != '_')
    ((Decimal.read? Text.digitValue? s).map ofDecimal).or (readName? s)
  else readName? s

/-- Low lines that stand alone and not at an end of the text. -/
def hasSingleLowLines (s : List Char) : Bool :=
  s.contains '_' && s.head? != some '_' && s.getLast? != some '_' && !hasDoubled s
where
  hasDoubled : List Char → Bool
    | '_' :: '_' :: _ => true
    | _ :: rest => hasDoubled rest
    | [] => false

/-- Reading of a field: white space around a plain numeral is allowed, and so are single low lines
inside one. -/
def readField? (s : List Char) : Option Binary64 :=
  (readPlain? (Text.trimSpace s)).or
    (if hasSingleLowLines s then readPlain? (s.filter (· != '_')) else none)

end Flowchart.Binary64
