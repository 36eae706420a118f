import Flowchart.Grammar.Declaration
import Flowchart.Grammar.Identifier
import Flowchart.Grammar.Keyword
import Flowchart.Number.Oversized
import Flowchart.Text.Quoted

/-!
Style lines: `style` with a node, or `linkStyle` with the positions of edges or the word `default`,
followed by declarations.
-/
namespace Flowchart

/-- Declarations for the node with an identifier. -/
structure NodeStyleLine where
  id : List Char
  declarations : List Declaration
deriving DecidableEq

/-- Declarations for the edges at some positions, or for all edges. -/
structure EdgeStyleLine where
  positions : Option (List Nat)
  declarations : List Declaration
deriving DecidableEq

def NodeStyleLine.read? (line : List Char) : Option NodeStyleLine := do
  let rest ← (Keyword.drop? "style" line).bind Keyword.afterBlanks?
  let (id, rest) ← Identifier.take? rest
  let declarations ← Keyword.afterBlanks? rest
  some ⟨id, Declaration.readAll declarations⟩

inductive PositionError
  | oversized (numeral : OversizedNumeral)
  | malformed (text : List Char)
deriving DecidableEq, Repr

namespace PositionError

/-- The greatest length at which a text is shown. -/
def shownLength : Nat := 200

def message : PositionError → String
  | oversized numeral => numeral.message
  | malformed text =>
    "invalid literal for int() with base 10: " ++
      String.ofList ((Text.quoted text).take shownLength)

end PositionError

/-- A position as it stands in a line: digits of any script, and the blanks around them. -/
structure PositionText where
  before : List Char
  digits : List Char
  after : List Char
deriving DecidableEq

namespace PositionText

def text (p : PositionText) : List Char :=
  p.before ++ p.digits ++ p.after

/-- The position that a text spells. Only white space may stand around the digits; of two faults the
first one counts. -/
def value (p : PositionText) : Except PositionError Nat :=
  if p.before.any (!Text.isSpace ·) then .error (.malformed p.text)
  else
    match Decimal.wholeOfDigits (p.digits.filterMap Text.digitValue?) with
    | .error numeral => .error (.oversized numeral)
    | .ok n => if p.after.any (!Text.isSpace ·) then .error (.malformed p.text) else .ok n

def values : List PositionText → Except PositionError (List Nat)
  | [] => .ok []
  | p :: rest =>
    match p.value with
    | .error e => .error e
    | .ok n => (values rest).map (n :: ·)

end PositionText

namespace EdgeStyleLine

/-- The longest list of positions behind which a blank and declarations follow, given the blanks before
the first one. The budget bounds the number of positions. -/
def takePositions? : Nat → List Char → List Char → Option (List PositionText × List Char)
  | 0, _, _ => none
  | budget + 1, before, s =>
    let digits := s.takeWhile Text.isDigit
    let rest := s.dropWhile Text.isDigit
    if digits.isEmpty then none
    else
      let longer :=
        match rest.dropWhile Text.isBlank with
        | ',' :: next => takePositions? budget (next.takeWhile Text.isBlank) (next.dropWhile Text.isBlank)
        | _ => none
      match longer with
      | some (positions, tail) =>
        some (⟨before, digits, rest.takeWhile Text.isBlank⟩ :: positions, tail)
      | none => (Keyword.afterBlanks? rest).map fun tail => ([⟨before, digits, []⟩], tail)

def read? (line : List Char) : Option (Except PositionError EdgeStyleLine) := do
  let rest ← (Keyword.drop? "linkStyle" line).bind Keyword.afterBlanks?
  match (Keyword.drop? "default" rest).bind Keyword.afterBlanks? with
  | some declarations => some (.ok ⟨none, Declaration.readAll declarations⟩)
  | none =>
    let (texts, declarations) ← takePositions? rest.length [] rest
    some ((PositionText.values texts).map fun positions =>
      ⟨some positions, Declaration.readAll declarations⟩)

end EdgeStyleLine

namespace Keyword

def startsStyle (line : List Char) : Bool :=
  ((drop? "style" line).or (drop? "linkStyle" line)).any fun rest =>
    (rest.head?.map Text.isBlank).getD false

end Keyword
end Flowchart
