import Flowchart.Json.Basic
import Flowchart.Number.Oversized
import Flowchart.Number.Reader
import Flowchart.Text.Mark

/-!
Reading JSON text. Besides the standard forms the three words for the infinities and the undefined
number are read; a repeated key keeps its first place and its last value. Very long whole numbers and
very deep nesting are refused. The first error in the order of the text counts.
-/
namespace Flowchart.Json

inductive ReadError
  | malformed
  | oversized (numeral : OversizedNumeral)
  | tooDeep
deriving DecidableEq

/-- How deep a text may be nested to be read. This is up to the machine that reads it and to how much of its
stack is in use. -/
class Nesting where
  greatest : Nat

/-- What is usually left of the limit when a text is read. -/
instance : Nesting := ⟨990⟩

def orMalformed {α : Type} : Option α → Except ReadError α
  | some a => .ok a
  | none => .error .malformed

def isJsonBlank (c : Char) : Bool :=
  c == ' ' || c == '\t' || c == '\n' || c == '\r'

def skipBlank (s : List Char) : List Char :=
  s.dropWhile isJsonBlank

def dropWord? (word : String) (s : List Char) : Option (List Char) :=
  if word.toList.isPrefixOf s then some (s.drop word.length) else none

def hexValue? (c : Char) : Option Nat :=
  if '0' ≤ c ∧ c ≤ '9' then some (c.toNat - 48)
  else if 'a' ≤ c ∧ c ≤ 'f' then some (c.toNat - 87)
  else if 'A' ≤ c ∧ c ≤ 'F' then some (c.toNat - 55)
  else none

def readUnit? : List Char → Option (Nat × List Char)
  | a :: b :: c :: d :: rest => do
    let a ← hexValue? a
    let b ← hexValue? b
    let c ← hexValue? c
    let d ← hexValue? d
    some (((a * 16 + b) * 16 + c) * 16 + d, rest)
  | _ => none

/-- The low half of a surrogate pair, if it is written next. -/
def lowHalf? : List Char → Option (Nat × List Char)
  | a :: 'u' :: rest =>
    if a = Text.backslash then
      match readUnit? rest with
      | some (low, tail) => if Text.isLowHalf low then some (low, tail) else none
      | none => none
    else none
  | _ => none

/-- The point that is told by one escape, read after its backslash. -/
def readEscape? : List Char → Option (Nat × List Char)
  | 'u' :: rest => do
    let (unit, tail) ← readUnit? rest
    match (if Text.isHighHalf unit then lowHalf? tail else none) with
    | some (low, tail) => some (Text.joinHalves unit low, tail)
    | none => some (unit, tail)
  | 'n' :: rest => some ('\n'.toNat, rest)
  | 't' :: rest => some ('\t'.toNat, rest)
  | 'r' :: rest => some ('\r'.toNat, rest)
  | 'b' :: rest => some (8, rest)
  | 'f' :: rest => some (12, rest)
  | '/' :: rest => some ('/'.toNat, rest)
  | c :: rest => if c = Text.backslash ∨ c = Text.doubleQuote then some (c.toNat, rest) else none
  | [] => none

/-- The rest of a string after its opening quote. Control characters have to be escaped. The budget
bounds the number of characters. -/
def readStringTail? : Nat → List Char → List Char → Option (String × List Char)
  | 0, _, _ => none
  | _, _, [] => none
  | budget + 1, read, c :: rest =>
    if c = Text.doubleQuote then some (String.ofList read.reverse, rest)
    else if c = Text.backslash then
      match readEscape? rest with
      | some (escaped, tail) => readStringTail? budget ((Text.ofPoint escaped).reverse ++ read) tail
      | none => none
    else if c.toNat < 32 then none
    else readStringTail? budget (c :: read) rest

def readString? (budget : Nat) (s : List Char) : Option (String × List Char) :=
  readStringTail? budget [] s

def takeDigits : List Char → List Nat × List Char :=
  Decimal.takeDigits Text.asciiDigitValue?

def readFraction : List Char → List Nat × List Char
  | '.' :: rest =>
    match takeDigits rest with
    | ([], _) => ([], '.' :: rest)
    | (ds, tail) => (ds, tail)
  | s => ([], s)

def readExponent (s : List Char) : Option Int × List Char :=
  match s with
  | [] => (none, [])
  | c :: rest =>
    if c = 'e' ∨ c = 'E' then
      let (negative, tail) := Decimal.takeSign rest
      match takeDigits tail with
      | ([], _) => (none, s)
      | (ds, tail) =>
        (some (if negative then -(Decimal.natOfDigits 0 ds : Int) else Decimal.natOfDigits 0 ds), tail)
    else (none, s)

/-- The whole part of a number: a single zero, or digits that start with another one. -/
def readWhole? (s : List Char) : Option (List Nat × List Char) :=
  match s with
  | '0' :: rest => some ([0], rest)
  | _ =>
    match takeDigits s with
    | ([], _) => none
    | read => some read

/-- A number without a point and an exponent is whole; every other one is rounded. -/
def readNumber (negative : Bool) (s : List Char) : Except ReadError (Number × List Char) :=
  match readWhole? s with
  | none => .error .malformed
  | some (whole, afterWhole) =>
    let (fraction, afterFraction) := readFraction afterWhole
    let (exponent, tail) := readExponent afterFraction
    if fraction.isEmpty && exponent.isNone then
      match Decimal.wholeOfDigits whole with
      | .error numeral => .error (.oversized numeral)
      | .ok n => .ok (.whole (Binary64.signed negative n), tail)
    else
      let coefficient := Decimal.natOfDigits 0 (whole ++ fraction)
      let x := Binary64.ofDecimal ⟨negative, coefficient, exponent.getD 0 - fraction.length⟩
      .ok (if negative && x == .zero then .negativeZero else .real x, tail)

def readWord (word : String) (value : Json) (s : List Char) : Except ReadError (Json × List Char) :=
  orMalformed ((dropWord? word s).map (value, ·))

def readNumberValue (negative : Bool) (s : List Char) : Except ReadError (Json × List Char) :=
  (readNumber negative s).map fun (n, tail) => (.number n, tail)

def readScalar (s : List Char) : Except ReadError (Json × List Char) :=
  match s with
  | [] => .error .malformed
  | c :: rest =>
    if c = 'n' then readWord "null" .null s
    else if c = 't' then readWord "true" (.bool true) s
    else if c = 'f' then readWord "false" (.bool false) s
    else if c = 'N' then readWord "NaN" (.number (.real .undefined)) s
    else if c = 'I' then readWord "Infinity" (.number (.real (.infinite false))) s
    else if c = '-' then
      match dropWord? "Infinity" rest with
      | some tail => .ok (.number (.real (.infinite true)), tail)
      | none => readNumberValue true rest
    else readNumberValue false s

/-- What the reader expects next while it is inside an array or an object. -/
inductive Frame
  | items (read : List Json)
  | fields (read : List (String × Json)) (key : String)

/-- The colon between a key and its value. -/
def readKey? (budget : Nat) (s : List Char) : Option (String × List Char) := do
  match s with
  | [] => none
  | c :: rest =>
    if c = Text.doubleQuote then
      let (key, tail) ← readString? budget rest
      match skipBlank tail with
      | ':' :: tail => some (key, skipBlank tail)
      | _ => none
    else none

section

variable [Nesting]

mutual

/-- Reads one value. The budget bounds the steps, of which there are no more than two for each
character. -/
def readValue : Nat → List Frame → List Char → Except ReadError (Json × List Char)
  | 0, _, _ => .error .malformed
  | budget + 1, frames, s =>
    match s with
    | '[' :: rest =>
      if Nesting.greatest ≤ frames.length then .error .tooDeep
      else
        match skipBlank rest with
        | ']' :: tail => closeValue budget frames (.array []) tail
        | tail => readValue budget (.items [] :: frames) tail
    | '\x7b' :: rest =>
      if Nesting.greatest ≤ frames.length then .error .tooDeep
      else
        match skipBlank rest with
        | '\x7d' :: tail => closeValue budget frames (.object []) tail
        | tail =>
          match readKey? budget tail with
          | some (key, tail) => readValue budget (.fields [] key :: frames) tail
          | none => .error .malformed
    | _ =>
      match s with
      | [] => .error .malformed
      | c :: rest =>
        if c = Text.doubleQuote then
          match readString? budget rest with
          | some (text, tail) => closeValue budget frames (.string text) tail
          | none => .error .malformed
        else
          match readScalar s with
          | .ok (value, tail) => closeValue budget frames value tail
          | .error e => .error e

/-- Hands a finished value to the array or object around it. -/
def closeValue : Nat → List Frame → Json → List Char → Except ReadError (Json × List Char)
  | _, [], value, s => .ok (value, s)
  | 0, _ :: _, _, _ => .error .malformed
  | budget + 1, .items read :: frames, value, s =>
    match skipBlank s with
    | ',' :: tail => readValue budget (.items (value :: read) :: frames) (skipBlank tail)
    | ']' :: tail => closeValue budget frames (.array (value :: read).reverse) tail
    | _ => .error .malformed
  | budget + 1, .fields read key :: frames, value, s =>
    match skipBlank s with
    | ',' :: tail =>
      match readKey? budget (skipBlank tail) with
      | some (next, tail) => readValue budget (.fields (putField read key value) next :: frames) tail
      | none => .error .malformed
    | '\x7d' :: tail => closeValue budget frames (.object (putField read key value)) tail
    | _ => .error .malformed

end

/-- Reads a text that holds one value and blanks around it. -/
def parse (s : List Char) : Except ReadError Json :=
  let start := skipBlank s
  match readValue (2 * start.length + 2) [] start with
  | .error e => .error e
  | .ok (value, tail) => if (skipBlank tail).isEmpty then .ok value else .error .malformed

end

end Flowchart.Json
