import Flowchart.Number.Reader

/-!
The arguments of a command line: the name of a command, and after it options, flags and at most one
plain argument. A word that starts with a dash names an option; its name may be shortened as long as
only one option is meant, and a value may follow it after an equals sign. After a double dash every
word is plain. A double dash after the equals sign gives the option, but no value.
-/
namespace Flowchart.Client

/-- What the value of an option or a plain argument has to be. -/
inductive ValueKind
  | text
  | number
  | choice (names : List String)

def ValueKind.accepts : ValueKind → String → Bool
  | text, _ => true
  | number, s => (Binary64.readLiberal? s.toList).isSome
  | choice names, s => names.contains s

structure OptionSpec where
  /-- The name without the dashes. -/
  name : String
  /-- What the value is; a flag has none. -/
  value : Option ValueKind
  isRequired : Bool

structure CommandSpec where
  name : String
  /-- What the plain argument is, if there is one. -/
  plain : Option ValueKind
  options : List OptionSpec

/-- What an option was given: a value, or nothing where a double dash stands in place of the value. -/
inductive Entry (α : Type)
  | value (a : α)
  | blank

namespace Entry

def read? {α β : Type} (read : α → Option β) : Entry α → Option (Entry β)
  | value a => (read a).map value
  | blank => some blank

def toOption {α : Type} : Entry α → Option α
  | value a => some a
  | blank => none

def ofText (s : String) : Entry String :=
  if s = "--" then blank else value s

end Entry

/-- What a command was given. Of an option that occurs twice the last entry comes first. -/
structure Arguments where
  plain : Option String
  entries : List (String × Entry String)
  flags : List String

namespace Arguments

def none : Arguments := ⟨.none, [], []⟩

def entry? (a : Arguments) (name : String) : Option (Entry String) :=
  a.entries.lookup name

def read? {α : Type} (a : Arguments) (read : String → Option α) (name : String) : Option (Entry α) :=
  (a.entry? name).bind (Entry.read? read)

def number? (a : Arguments) (name : String) : Option (Entry Binary64) :=
  a.read? (fun s => Binary64.readLiberal? s.toList) name

def isSet (a : Arguments) (flag : String) : Bool :=
  a.flags.contains flag

end Arguments

inductive ArgumentError
  /-- Help was asked for. -/
  | help
  | misuse
deriving DecidableEq, Repr

inductive Target
  | help
  | option (spec : OptionSpec)

def Target.text : Target → List Char
  | help => "--help".toList
  | option spec => "--".toList ++ spec.name.toList

inductive Word
  | plain (s : String)
  | separator
  | option (target : Target) (value : Option String)
  | unknown
  | ambiguous

/-- A word up to an equals sign, and what follows the sign. -/
def splitValue (s : List Char) : List Char × Option String :=
  match s.dropWhile (· != '=') with
  | _ :: value => (s.takeWhile (· != '='), some (String.ofList value))
  | [] => (s, .none)

/-- A negative number such as `-3` or `-.5`. -/
def isNegativeNumeral (s : List Char) : Bool :=
  let s := if s.getLast? = some '\n' then s.dropLast else s
  match s with
  | '-' :: digits =>
    match digits.dropWhile Text.isDigit with
    | '.' :: fraction => !fraction.isEmpty && fraction.all Text.isDigit
    | [] => !digits.isEmpty
    | _ => false
  | _ => false

namespace Word

/-- The meaning of a word that names no option: some words that start with a dash are plain. -/
def ofUnnamed (s : List Char) : Word :=
  if isNegativeNumeral s || s.contains ' ' then plain (String.ofList s) else unknown

def ofLong (options : List OptionSpec) (s : List Char) : Word :=
  let targets := Target.help :: options.map .option
  let (name, value) := splitValue s
  match targets.find? (·.text == s), targets.find? (·.text == name) with
  | some target, _ => option target .none
  | .none, some target => option target value
  | .none, .none =>
    match targets.filter fun target => name.isPrefixOf target.text with
    | [target] => option target value
    | [] => ofUnnamed s
    | _ :: _ :: _ => ambiguous

/-- The meaning of the word `-h`, given the characters after it. The letter may be repeated, also after
an equals sign; anything else is a value, which help does not take. -/
def ofHelp (rest : List Char) : Word :=
  let repeated :=
    match rest with
    | '=' :: letters => !letters.isEmpty && letters.all (· == 'h')
    | letters => letters.all (· == 'h')
  option .help (if repeated then .none else some (String.ofList rest))

def ofShort (s : List Char) : Word :=
  match s with
  | '-' :: 'h' :: rest => ofHelp rest
  | _ => ofUnnamed s

def ofText (options : List OptionSpec) (s : String) : Word :=
  match s.toList with
  | ['-', '-'] => separator
  | '-' :: '-' :: _ => ofLong options s.toList
  | '-' :: _ :: _ => ofShort s.toList
  | _ => plain s

def ofTexts (options : List OptionSpec) : List String → List Word
  | [] => []
  | s :: rest =>
    match ofText options s with
    | separator => separator :: rest.map plain
    | word => word :: ofTexts options rest

def isAmbiguous : Word → Bool
  | ambiguous => true
  | _ => false

end Word

/-- The arguments read so far, and whether a word was found that has no place. -/
structure ArgumentReading where
  arguments : Arguments
  hasSurplus : Bool

namespace ArgumentReading

def start : ArgumentReading := ⟨.none, false⟩

def withSurplus (r : ArgumentReading) : ArgumentReading :=
  { r with hasSurplus := true }

def withPlain (r : ArgumentReading) (s : String) : ArgumentReading :=
  { r with arguments := { r.arguments with plain := some s } }

def withEntry (r : ArgumentReading) (name : String) (entry : Entry String) : ArgumentReading :=
  { r with arguments := { r.arguments with entries := (name, entry) :: r.arguments.entries } }

def withFlag (r : ArgumentReading) (name : String) : ArgumentReading :=
  { r with arguments := { r.arguments with flags := name :: r.arguments.flags } }

/-- What the next plain word has to be, if there is a place for it. -/
def awaited? (r : ArgumentReading) (spec : CommandSpec) : Option ValueKind :=
  if r.arguments.plain.isSome then .none else spec.plain

/-- Takes in the words one after the other. A separator right before or after the plain argument belongs
to it; any other one has no place. -/
def readWords (spec : CommandSpec) (r : ArgumentReading) :
    List Word → Except ArgumentError ArgumentReading
  | [] => .ok r
  | .option .help .none :: _ => .error .help
  | .option .help (some _) :: _ => .error .misuse
  | .option (.option o) value :: rest =>
    match o.value, value, rest with
    | .none, .none, rest => readWords spec (r.withFlag o.name) rest
    | .none, some _, _ => .error .misuse
    | some kind, some s, rest =>
      let entry := Entry.ofText s
      if entry.toOption.all kind.accepts then readWords spec (r.withEntry o.name entry) rest
      else .error .misuse
    | some kind, .none, .plain s :: rest =>
      if kind.accepts s then readWords spec (r.withEntry o.name (.value s)) rest else .error .misuse
    | some _, .none, _ => .error .misuse
  | .plain s :: rest =>
    match r.awaited? spec, rest with
    | .none, rest => readWords spec r.withSurplus rest
    | some kind, .separator :: rest =>
      if kind.accepts s then readWords spec (r.withPlain s) rest else .error .misuse
    | some kind, rest =>
      if kind.accepts s then readWords spec (r.withPlain s) rest else .error .misuse
  | .separator :: rest =>
    match r.awaited? spec, rest with
    | some _, .plain s :: rest => readWords spec r (.plain s :: rest)
    | _, rest => readWords spec r.withSurplus rest
  | .unknown :: rest => readWords spec r.withSurplus rest
  | .ambiguous :: _ => .error .misuse

end ArgumentReading

namespace CommandSpec

def isComplete (spec : CommandSpec) (a : Arguments) : Bool :=
  (spec.plain.isNone || a.plain.isSome) &&
    spec.options.all fun o => !o.isRequired || (a.entry? o.name).isSome

def read (spec : CommandSpec) (texts : List String) : Except ArgumentError Arguments :=
  let words := Word.ofTexts spec.options texts
  if words.any Word.isAmbiguous then .error .misuse
  else
    match ArgumentReading.start.readWords spec words with
    | .error e => .error e
    | .ok r => if r.hasSurplus || !spec.isComplete r.arguments then .error .misuse else .ok r.arguments

/-- Reads a whole command line. A word with a dash before the name of the command has no place. -/
def readLine (specs : List CommandSpec) (hasSurplus : Bool) :
    List String → Except ArgumentError (String × Arguments)
  | [] => .error .misuse
  | s :: rest =>
    match Word.ofText [] s with
    | .plain name =>
      match specs.find? (·.name == name) with
      | .none => .error .misuse
      | some spec =>
        match spec.read rest with
        | .error e => .error e
        | .ok a => if hasSurplus then .error .misuse else .ok (name, a)
    | .option .help .none => .error .help
    | .unknown => readLine specs true rest
    | _ => .error .misuse

end CommandSpec
end Flowchart.Client
