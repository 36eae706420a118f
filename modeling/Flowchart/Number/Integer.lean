import Flowchart.Number.Oversized
import Flowchart.Number.Reader

/-!
Reading whole numbers from the texts of fields.
-/
namespace Flowchart.Integer

inductive FieldError
  | unreadable
  | oversized
deriving DecidableEq, Repr

/-- The length of a sign and the digits after it, if the first of these is not zero. -/
def numeralLength (s : List Char) : Nat :=
  let (sign, digits) :=
    match s with
    | '-' :: rest => (1, rest)
    | _ => (0, s)
  match Decimal.takeDigits Text.asciiDigitValue? digits with
  | (0 :: _, _) => 0
  | (ds, _) => sign + ds.length

def isOversized (s : List Char) : Bool :=
  OversizedNumeral.limit < numeralLength s

/-- A numeral without superfluous zeros: an optional minus, then a single zero or digits that start
with another one. -/
def readPlain? (s : List Char) : Option Int :=
  let (negative, digits) :=
    match s with
    | '-' :: rest => (true, rest)
    | _ => (false, s)
  match Decimal.takeDigits Text.asciiDigitValue? digits with
  | (0 :: _ :: _, _) => none
  | (d :: ds, []) => some (Binary64.signed negative (Decimal.natOfDigits 0 (d :: ds)))
  | _ => none

/-- What follows a run of zeros and low lines, be it a digit or a minus; the last of them stays if
neither follows. -/
def dropZeroRun? (last : Char) : List Char → Option (List Char)
  | [] => some [last]
  | c :: rest =>
    if c = '0' ∨ c = '_' then dropZeroRun? c rest
    else if ('1' ≤ c ∧ c ≤ '9') ∨ c = '-' then some (c :: rest)
    else if c = '.' then some (last :: c :: rest)
    else none

/-- The numeral without leading zeros; it has to start with a digit. -/
def dropLeadingZeros? : List Char → Option (List Char)
  | [] => none
  | c :: rest =>
    if c = '0' then dropZeroRun? c rest
    else if '1' ≤ c ∧ c ≤ '9' then some (c :: rest)
    else none

/-- The numeral without a fraction, if that consists of zeros only. -/
def dropZeroFraction (s : List Char) : List Char :=
  match s.dropWhile (· != '.') with
  | _ :: fraction =>
    if !fraction.isEmpty && fraction.all (· == '0') then s.takeWhile (· != '.') else s
  | [] => s

/-- Low lines go, if each stands alone and inside the numeral. -/
def dropLowLines (s : List Char) : List Char :=
  if Binary64.hasSingleLowLines s then s.filter (· != '_') else s

def takeSign : List Char → List Char × List Char
  | '-' :: rest => (['-'], rest)
  | '+' :: rest => ([], rest)
  | s => ([], s)

/-- Reading of a numeral with white space around it, a plus, leading zeros, a fraction of zeros or
single low lines. -/
def readLiberal? (s : List Char) : Option Int := do
  let (minus, digits) := takeSign (Text.trimSpace s)
  let digits ← dropLeadingZeros? digits
  let cleaned := minus ++ dropLowLines (dropZeroFraction digits)
  if isOversized cleaned then none else readPlain? cleaned

/-- Reading of a field. Only a numeral that starts the text can be too long. -/
def readField (s : List Char) : Except FieldError Int :=
  if isOversized s then .error .oversized
  else
    match (readPlain? s).or (readLiberal? s) with
    | some n => .ok n
    | none => .error .unreadable

end Flowchart.Integer
