import Flowchart.Schema.Check
import Flowchart.Text.Line

/-!
Settings of the service, read from the variables of the environment.
-/
namespace Flowchart.Server

open Schema

structure Settings where
  host : String
  port : Int
  /-- The quiet period before changes of the graph are written to the text, in milliseconds. -/
  delay : Nat
  exportUrl : String
  exportTimeout : Binary64
  /-- The origins that may use the service, separated by commas. -/
  origins : String
  logLevel : String
  initialText : String

namespace Settings

def standardText : String :=
  "flowchart TD\n    A((Start)) --> B[Edit the text]\n    B --> C\x7bLooks right?\x7d\n" ++
    "    C -->|yes| D([Done])\n    C -->|no| B\n"

def standard : Settings where
  host := "127.0.0.1"
  port := 8765
  delay := 300
  exportUrl := "http://127.0.0.1:3001/api/export"
  exportTimeout := 30
  origins := "http://localhost:5173,http://localhost:3000,http://127.0.0.1:5173"
  logLevel := "INFO"
  initialText := standardText

/-- The origins one by one, without blanks around them. -/
def originList (s : Settings) : List String :=
  ((Text.splitAtChar ',' s.origins.toList).map Text.trim |>.filter (!·.isEmpty)).map String.ofList

def toJson (s : Settings) : Json :=
  .object
    [("host", .string s.host),
     ("port", .number (.whole s.port)),
     ("debounce_ms", .ofNat s.delay),
     ("export_url", .string s.exportUrl),
     ("export_timeout", .ofReal s.exportTimeout),
     ("cors_origins", .string s.origins),
     ("log_level", .string s.logLevel),
     ("initial_text", .string s.initialText)]

/-- What the name of every variable starts with, in lower case. -/
def variableStart : String := "flowsync_"

/-- The value of a variable; upper and lower case are the same, and the last variable counts. -/
def valueOf? (environment : List (String × String)) (name : String) : Option String :=
  (environment.reverse.find? fun (key, _) =>
    Text.lower key.toList == (variableStart ++ name).toList).map (·.2)

/-- Why the environment cannot hold a variable. -/
inductive VariableError
  | nullCharacter
  | badName
  | noName
deriving DecidableEq, Repr

def VariableError.message : VariableError → String
  | nullCharacter => "embedded null byte"
  | badName => "illegal environment variable name"
  | noName => "Invalid argument"

/-- What is wrong with a variable, if anything is: a name is not empty and holds no equals sign, and no
null character stands in a name or a value. -/
def variableError? (name value : String) : Option VariableError :=
  let null := Char.ofNat 0
  if name.toList.contains null || value.toList.contains null then some .nullCharacter
  else if name.toList.contains '=' then some .badName
  else if name.isEmpty then some .noName
  else none

/-- Settings from fields, all of which may be left out. -/
def ofFields [Coercion] (fields : List (String × Json)) : Checked Settings :=
  Settings.mk
    <$> optional fields "host" standard.host Rule.text
    <*> optional fields "port" standard.port Rule.integer
    <*> optional fields "debounce_ms" standard.delay Rule.count
    <*> optional fields "export_url" standard.exportUrl Rule.text
    <*> optional fields "export_timeout" standard.exportTimeout Rule.number
    <*> optional fields "cors_origins" standard.origins Rule.text
    <*> optional fields "log_level" standard.logLevel Rule.text
    <*> optional fields "initial_text" standard.initialText Rule.text

def names : List String :=
  ["host", "port", "debounce_ms", "export_url", "export_timeout", "cors_origins", "log_level",
   "initial_text"]

/-- The fields that variables of the environment give. -/
def fieldsOf (environment : List (String × String)) : List (String × Json) :=
  names.filterMap fun name =>
    (valueOf? environment name).map fun value => (name, .string value)

def ofEnvironment [Coercion] (environment : List (String × String)) : Checked Settings :=
  ofFields (fieldsOf environment)

end Settings
end Flowchart.Server
