import Flowchart.Graph.Basic
import Flowchart.Text.Blank
import Flowchart.Text.Line
import Flowchart.Text.Lowercase
import Flowchart.Text.Word

/-!
The header of a diagram text: its first line that is neither blank nor a comment. It starts with the
kind of the diagram and may name the direction.
-/
namespace Flowchart.Header

/-- A trimmed line that is neither blank nor a comment. -/
def isSignificant : List Char → Bool
  | [] => false
  | '%' :: '%' :: _ => false
  | _ => true

/-- The first significant line of a text, trimmed. -/
def find? (text : List Char) : Option (List Char) :=
  ((Text.lines text).map Text.trim).find? isSignificant

def isKindChar (c : Char) : Bool :=
  ('A' ≤ c && c ≤ 'Z') || ('a' ≤ c && c ≤ 'z') || ('0' ≤ c && c ≤ '9') || c == '_' || c == '-'

/-- The kind named by the leading word of a line, in any case. -/
def kind? (line : List Char) : Option DiagramKind :=
  let word := Text.asciiLower (line.takeWhile isKindChar)
  DiagramKind.all.find? fun kind => Text.asciiLower kind.name.toList == word

def detect? (text : List Char) : Option DiagramKind :=
  (find? text).bind kind?

def directionOf? (a b : Char) : Option Direction :=
  Direction.ofName? (String.ofList [a.toUpper, b.toUpper])

/-- The first direction that stands as a whole word; `inWord` tells whether a word character stands
right before the text. -/
def findDirection? (inWord : Bool) : List Char → Option Direction
  | [] => none
  | [_] => none
  | a :: b :: rest =>
    let found :=
      if inWord || (rest.head?.map Text.isWordChar).getD false then none else directionOf? a b
    found.or (findDirection? (Text.isWordChar a) (b :: rest))

/-- The direction that a header names, downwards if it names none. -/
def direction (header : List Char) : Direction :=
  (findDirection? false header).getD .topDown

end Flowchart.Header
