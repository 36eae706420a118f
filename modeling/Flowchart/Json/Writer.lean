import Flowchart.Json.Basic
import Flowchart.Number.Shortest
import Flowchart.Text.Quoted

/-!
Writing JSON text on one line or indented, and the display text of a value inside a message. The text has
ASCII characters only, except for the dense form on one line.
-/
namespace Flowchart.Json

/-- One code unit of sixteen bits as an escape. -/
def escapeUnit (n : Nat) : List Char :=
  Text.backslash :: 'u' :: Text.hexDigits 4 n

/-- One point inside a JSON string. Only quotes, backslashes and control characters are escaped. -/
def escapeControl (n : Nat) : List Char :=
  if n = Text.doubleQuote.toNat ∨ n = Text.backslash.toNat then [Text.backslash, Char.ofNat n]
  else if n = '\n'.toNat then [Text.backslash, 'n']
  else if n = '\r'.toNat then [Text.backslash, 'r']
  else if n = '\t'.toNat then [Text.backslash, 't']
  else if n = 8 then [Text.backslash, 'b']
  else if n = 12 then [Text.backslash, 'f']
  else if n < 32 then escapeUnit n
  else Text.ofPoint n

/-- One point inside a JSON string of ASCII characters. A point beyond sixteen bits takes two units. -/
def escapePoint (n : Nat) : List Char :=
  if n ≤ 126 then escapeControl n
  else if n < 0x10000 then escapeUnit n
  else escapeUnit (0xD800 + (n - 0x10000) / 1024) ++ escapeUnit (0xDC00 + (n - 0x10000) % 1024)

def quotedText (escape : Nat → List Char) (s : String) : List Char :=
  Text.doubleQuote :: (Text.points s.toList).flatMap escape ++ [Text.doubleQuote]

def stringText (s : String) : List Char :=
  quotedText escapePoint s

def intText (n : Int) : List Char :=
  (if n < 0 then ['-'] else []) ++ Nat.toDigits 10 n.natAbs

def negativeZeroText : List Char := ['-', '0', '.', '0']

def numberText : Number → List Char
  | .whole n => intText n
  | .real .undefined => "NaN".toList
  | .real (.infinite false) => "Infinity".toList
  | .real (.infinite true) => "-Infinity".toList
  | .real x => x.toText
  | .negativeZero => negativeZeroText

def scalarText : Json → List Char
  | .null => "null".toList
  | .bool true => "true".toList
  | .bool false => "false".toList
  | .number n => numberText n
  | .string s => stringText s
  | .array _ => []
  | .object _ => []

mutual

/-- The text of a value on one line. -/
def compact : Json → List Char
  | .array items => '[' :: compactItems items ++ [']']
  | .object fields => '\x7b' :: compactFields fields ++ ['\x7d']
  | value => scalarText value

def compactItems : List Json → List Char
  | [] => []
  | [item] => compact item
  | item :: rest => compact item ++ ',' :: ' ' :: compactItems rest

def compactFields : List (String × Json) → List Char
  | [] => []
  | [(key, value)] => stringText key ++ ':' :: ' ' :: compact value
  | (key, value) :: rest =>
    stringText key ++ ':' :: ' ' :: compact value ++ ',' :: ' ' :: compactFields rest

end

mutual

/-- The shortest text of a value: no blanks between its parts, and no escapes that can be spared. -/
def dense : Json → List Char
  | .string s => quotedText escapeControl s
  | .array items => '[' :: denseItems items ++ [']']
  | .object fields => '\x7b' :: denseFields fields ++ ['\x7d']
  | value => scalarText value

def denseItems : List Json → List Char
  | [] => []
  | [item] => dense item
  | item :: rest => dense item ++ ',' :: denseItems rest

def denseFields : List (String × Json) → List Char
  | [] => []
  | [(key, value)] => quotedText escapeControl key ++ ':' :: dense value
  | (key, value) :: rest =>
    quotedText escapeControl key ++ ':' :: dense value ++ ',' :: denseFields rest

end

def newLine (indent : Nat) : List Char :=
  '\n' :: List.replicate indent ' '

mutual

/-- The text of a value over several lines, each level two columns further in. -/
def indented (indent : Nat) : Json → List Char
  | .array [] => ['[', ']']
  | .array items => '[' :: indentedItems (indent + 2) items ++ newLine indent ++ [']']
  | .object [] => ['\x7b', '\x7d']
  | .object fields => '\x7b' :: indentedFields (indent + 2) fields ++ newLine indent ++ ['\x7d']
  | value => scalarText value

def indentedItems (indent : Nat) : List Json → List Char
  | [] => []
  | [item] => newLine indent ++ indented indent item
  | item :: rest => newLine indent ++ indented indent item ++ ',' :: indentedItems indent rest

def indentedFields (indent : Nat) : List (String × Json) → List Char
  | [] => []
  | [(key, value)] => newLine indent ++ stringText key ++ ':' :: ' ' :: indented indent value
  | (key, value) :: rest =>
    newLine indent ++ stringText key ++ ':' :: ' ' :: indented indent value ++
      ',' :: indentedFields indent rest

end

def displayNumber : Number → List Char
  | .whole n => intText n
  | .real x => x.toText
  | .negativeZero => negativeZeroText

mutual

/-- The text of a value inside another one, where strings are quoted. -/
def displayNested : Json → List Char
  | .null => "None".toList
  | .bool true => "True".toList
  | .bool false => "False".toList
  | .number n => displayNumber n
  | .string s => Text.quoted s.toList
  | .array items => '[' :: displayItems items ++ [']']
  | .object fields => '\x7b' :: displayFields fields ++ ['\x7d']

def displayItems : List Json → List Char
  | [] => []
  | [item] => displayNested item
  | item :: rest => displayNested item ++ ',' :: ' ' :: displayItems rest

def displayFields : List (String × Json) → List Char
  | [] => []
  | [(key, value)] => Text.quoted key.toList ++ ':' :: ' ' :: displayNested value
  | (key, value) :: rest =>
    Text.quoted key.toList ++ ':' :: ' ' :: displayNested value ++ ',' :: ' ' :: displayFields rest

end

/-- The text of a value in a message: a string stands as it is. -/
def display : Json → List Char
  | .string s => s.toList
  | value => displayNested value

def toCompactString (value : Json) : String :=
  String.ofList (compact value)

def toDenseString (value : Json) : String :=
  String.ofList (dense value)

def toIndentedString (value : Json) : String :=
  String.ofList (indented 0 value)

def toDisplayString (value : Json) : String :=
  String.ofList (display value)

def toQuotedString (value : Json) : String :=
  String.ofList (displayNested value)

end Flowchart.Json
