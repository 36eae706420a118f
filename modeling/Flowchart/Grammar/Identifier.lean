/-!
Identifiers: a letter A to Z or low line, then letters, digits 0 to 9 and low lines.
-/
namespace Flowchart.Identifier

def isStart (c : Char) : Bool :=
  ('A' ≤ c && c ≤ 'Z') || ('a' ≤ c && c ≤ 'z') || c == '_'

def isPart (c : Char) : Bool :=
  isStart c || ('0' ≤ c && c ≤ '9')

/-- The longest identifier at the front of a text, and what follows it. -/
def take? : List Char → Option (List Char × List Char)
  | [] => none
  | c :: rest => if isStart c then some (c :: rest.takeWhile isPart, rest.dropWhile isPart) else none

def isIdentifier (s : List Char) : Bool :=
  match take? s with
  | some (_, rest) => rest.isEmpty
  | none => false

end Flowchart.Identifier
