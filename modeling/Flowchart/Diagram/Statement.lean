import Flowchart.Diagram.Issue
import Flowchart.Grammar.Arrow
import Flowchart.Grammar.Header
import Flowchart.Grammar.NodeRef
import Flowchart.Grammar.StyleLine

/-!
Statements: what one line below the header says.
-/
namespace Flowchart

inductive Statement
  | structural
  | nodeStyle (style : NodeStyleLine)
  | edgeStyle (style : EdgeStyleLine)
  | node (ref : NodeRef)
  | edge (source : NodeRef) (arrow : Arrow) (target : NodeRef)
  | skipped (reason : SkipReason)
  /-- A style line with a position that is not read. -/
  | broken (e : PositionError)
deriving DecidableEq

namespace Statement

def ofPlainLine (line : List Char) : Statement :=
  if Keyword.startsStyle line then .skipped .malformedStyle
  else
    match NodeRef.read? line with
    | some ref => .node ref
    | none => .skipped .notNodeOrEdge

def ofArrow (found : ArrowMatch) : Statement :=
  match NodeRef.read? found.before, NodeRef.read? found.after with
  | some source, some target => .edge source found.arrow target
  | _, _ => .skipped .malformedEndpoint

/-- The statement of a trimmed line. An arrow keeps a line from being structural, but not from being
a style line. -/
def ofLine (line : List Char) : Statement :=
  let arrow := ArrowMatch.find? line
  if arrow.isNone && Keyword.isStructural line then .structural
  else
    match NodeStyleLine.read? line with
    | some style => .nodeStyle style
    | none =>
      match EdgeStyleLine.read? line with
      | some (.ok style) => .edgeStyle style
      | some (.error e) => .broken e
      | none =>
        match arrow with
        | none => ofPlainLine line
        | some found => ofArrow found

def error? : Statement → Option PositionError
  | broken e => some e
  | _ => none

end Statement

/-- A line of a text with its number, counted from one. -/
structure NumberedLine where
  number : Nat
  content : List Char
deriving DecidableEq

namespace NumberedLine

/-- A line without the semicolons at its end. -/
def dropSemicolons (line : List Char) : List Char :=
  Text.dropEndWhile Text.isBlank (Text.dropEndWhile (· == ';') line)

/-- The significant lines among numbered ones, trimmed and without semicolons at their ends. -/
def significant (number : Nat) : List (List Char) → List NumberedLine
  | [] => []
  | raw :: rest =>
    let line := Text.trim raw
    if Header.isSignificant line then
      ⟨number, dropSemicolons line⟩ :: significant (number + 1) rest
    else significant (number + 1) rest

def ofText (text : List Char) : List NumberedLine :=
  significant 1 (Text.lines text)

end NumberedLine
end Flowchart
