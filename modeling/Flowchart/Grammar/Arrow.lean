import Flowchart.Graph.Basic
import Flowchart.Text.Point

/-!
Arrows in the text form: a token, and perhaps a label between two bars right behind it. Labelled
arrows are looked for before plain ones, each in the order of the table.
-/
namespace Flowchart

namespace ArrowKind

def token : ArrowKind → List Char
  | arrow => ['-', '-', '>']
  | plain => ['-', '-', '-']
  | dotted => ['-', '.', '-', '>']
  | thick => ['=', '=', '>']
  | circle => ['-', '-', 'o']
  | cross => ['-', '-', 'x']

end ArrowKind

structure Arrow where
  kind : ArrowKind
  label : Option (List Char)
deriving DecidableEq

namespace Arrow

/-- The text of an arrow; an empty label is left out. -/
def toText : Arrow → List Char
  | ⟨kind, none⟩ => kind.token
  | ⟨kind, some []⟩ => kind.token
  | ⟨kind, some label⟩ => kind.token ++ '|' :: label ++ ['|']

/-- One rule of the search: a kind of arrow, with a label or without. -/
structure Rule where
  kind : ArrowKind
  labelled : Bool
deriving DecidableEq

def rules : List Rule :=
  ArrowKind.all.map (⟨·, true⟩) ++ ArrowKind.all.map (⟨·, false⟩)

/-- A label between bars at the front of a text, and what follows it. -/
def takeLabel? : List Char → Option (List Char × List Char)
  | '|' :: rest =>
    match rest.takeWhile (· != '|'), rest.dropWhile (· != '|') with
    | [], _ => none
    | _ :: _, [] => none
    | c :: label, _ :: after => some (c :: label, after)
  | _ => none

def dropToken? : List Char → List Char → Option (List Char)
  | [], s => some s
  | _ :: _, [] => none
  | t :: token, c :: s => if t = c then dropToken? token s else none

def Rule.atFront? (rule : Rule) (s : List Char) : Option (Arrow × List Char) := do
  let rest ← dropToken? rule.kind.token s
  if rule.labelled then
    let (label, after) ← takeLabel? rest
    some (⟨rule.kind, some label⟩, after)
  else some (⟨rule.kind, none⟩, rest)

end Arrow

/-- A line cut at an arrow. -/
structure ArrowMatch where
  before : List Char
  arrow : Arrow
  after : List Char
deriving DecidableEq

namespace ArrowMatch

/-- The first place where a rule applies. -/
def first? (rule : Arrow.Rule) : List Char → Option ArrowMatch
  | [] => (rule.atFront? []).map fun (arrow, after) => ⟨[], arrow, after⟩
  | c :: rest =>
    match rule.atFront? (c :: rest) with
    | some (arrow, after) => some ⟨[], arrow, after⟩
    | none => (first? rule rest).map fun found => { found with before := c :: found.before }

/-- The arrow of the first rule that applies anywhere in a line, at its first place. -/
def find? (line : List Char) : Option ArrowMatch :=
  Arrow.rules.findSome? (first? · line)

def start (found : ArrowMatch) : Nat :=
  (Text.points found.before).length

/-- The position behind the last point of the arrow. -/
def stop (found : ArrowMatch) : Nat :=
  found.start + (Text.points found.arrow.toText).length

end ArrowMatch
end Flowchart
