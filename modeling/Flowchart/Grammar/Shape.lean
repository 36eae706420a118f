import Flowchart.Graph.Basic

/-!
Node shapes in the text form: each shape encloses its label in a pair of delimiters. Where two pairs
fit, the more specific one is tried first.
-/
namespace Flowchart

namespace NodeShape

def opening : NodeShape → List Char
  | circle => ['(', '(']
  | stadium => ['(', '[']
  | cylinder => ['[', '(']
  | subroutine => ['[', '[']
  | hexagon => ['\x7b', '\x7b']
  | diamond => ['\x7b']
  | rounded => ['(']
  | parallelogram => ['[', '/']
  | asymmetric => ['>']
  | rectangle => ['[']

def closing : NodeShape → List Char
  | circle => [')', ')']
  | stadium => [']', ')']
  | cylinder => [')', ']']
  | subroutine => [']', ']']
  | hexagon => ['\x7d', '\x7d']
  | diamond => ['\x7d']
  | rounded => [')']
  | parallelogram => ['/', ']']
  | asymmetric => [']']
  | rectangle => [']']

/-- The order in which the shapes are tried. -/
def byPriority : List NodeShape :=
  [circle, stadium, cylinder, subroutine, hexagon, diamond, rounded, parallelogram, asymmetric,
   rectangle]

def wrap (shape : NodeShape) (label : List Char) : List Char :=
  shape.opening ++ label ++ shape.closing

def dropStart? : List Char → List Char → Option (List Char)
  | [], s => some s
  | _ :: _, [] => none
  | o :: opening, c :: s => if o = c then dropStart? opening s else none

def dropEnd? (closing s : List Char) : Option (List Char) :=
  (dropStart? closing.reverse s.reverse).map List.reverse

/-- The label between the delimiters of a shape: not empty and without line feed. -/
def unwrap? (shape : NodeShape) (s : List Char) : Option (List Char) := do
  let rest ← dropStart? shape.opening s
  let label ← dropEnd? shape.closing rest
  if label.isEmpty || label.contains '\n' then none else some label

/-- A single line feed at the end of a text does not count. -/
def dropFinalLineFeed (s : List Char) : List Char :=
  if s.getLast? = some '\n' then s.dropLast else s

/-- The first shape whose delimiters enclose the whole text, with the label between them. -/
def match? (s : List Char) : Option (NodeShape × List Char) :=
  byPriority.findSome? fun shape => (shape.unwrap? (dropFinalLineFeed s)).map (shape, ·)

/-- A wrapped label reads back as the same shape with the same label. -/
def keeps (shape : NodeShape) (label : List Char) : Bool :=
  !label.contains '\n' && match? (shape.wrap label) == some (shape, label)

end NodeShape
end Flowchart
