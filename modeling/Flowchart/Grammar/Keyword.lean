import Flowchart.Graph.Basic
import Flowchart.Text.Blank
import Flowchart.Text.Digit

/-!
Lines that start with a keyword: structural lines, which are accepted and carry nothing, and style
lines for nodes and for edges.
-/
namespace Flowchart.Keyword

/-- A letter of a keyword that is read in any case: besides the capitals, the long s, the Kelvin
sign, and the capital i with and the small i without a dot count as the letters they resemble. -/
def foldChar (c : Char) : Char :=
  if c.toNat = 0x17f then 's'
  else if c.toNat = 0x212a then 'k'
  else if c.toNat = 0x130 ∨ c.toNat = 0x131 then 'i'
  else c.toLower

/-- What follows a keyword at the front of a line, the keyword in any case. -/
def dropAnyCase? (keyword : String) (line : List Char) : Option (List Char) :=
  let n := keyword.length
  if (line.take n).map foldChar == keyword.toList then some (line.drop n) else none

def drop? (keyword : String) (line : List Char) : Option (List Char) :=
  if keyword.toList.isPrefixOf line then some (line.drop keyword.length) else none

def afterBlanks? : List Char → Option (List Char)
  | c :: rest =>
    if Text.isBlank c then
      match rest.dropWhile Text.isBlank with
      | [] => none
      | s => some s
    else none
  | [] => none

def isSubgraphLine (line : List Char) : Bool :=
  match dropAnyCase? "subgraph" line with
  | some [] => true
  | some (c :: _) => Text.isBlank c
  | none => false

def isEndLine (line : List Char) : Bool :=
  dropAnyCase? "end" line == some []

def isDirectionLine (line : List Char) : Bool :=
  match (dropAnyCase? "direction" line).bind afterBlanks? with
  | some [a, b] => (Direction.ofName? (String.ofList [a.toUpper, b.toUpper])).isSome
  | _ => false

def hasArgument (keyword : String) (line : List Char) : Bool :=
  ((dropAnyCase? keyword line).bind afterBlanks?).isSome

/-- Lines that are accepted and carry nothing. Whole keyword forms count only, so an identifier may
start with a keyword. -/
def isStructural (line : List Char) : Bool :=
  isSubgraphLine line || isEndLine line || isDirectionLine line ||
    hasArgument "classdef" line || hasArgument "class" line || hasArgument "click" line

end Flowchart.Keyword
