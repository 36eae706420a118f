import Flowchart.Graph.Basic
import Flowchart.Number.Reader
import Flowchart.Text.Line

/-!
Style declarations: `name:value` pairs between commas, and what they mean for the style of a node or
an edge. Values that cannot be used are passed over.
-/
namespace Flowchart

structure Declaration where
  /-- In lower case. -/
  name : List Char
  value : List Char
deriving DecidableEq

namespace Declaration

def splitAtColon? : List Char → Option (List Char × List Char)
  | [] => none
  | ':' :: rest => some ([], rest)
  | c :: rest => (splitAtColon? rest).map fun (name, value) => (c :: name, value)

/-- One part between commas. Both sides have to be more than blanks. -/
def ofPart? (part : List Char) : Option Declaration := do
  let (name, value) ← splitAtColon? part
  let name := Text.lower (Text.trim name)
  let value := Text.trim value
  if name.isEmpty || value.isEmpty then none else some ⟨name, value⟩

def readAll (s : List Char) : List Declaration :=
  (Text.splitAtChar ',' s).filterMap ofPart?

/-- A size with or without the unit `px`. -/
def readSize? (value : List Char) : Option Binary64 :=
  let value := Text.asciiLower value
  Binary64.readLiberal? (Text.trim ((dropUnit? value).getD value))
where
  dropUnit? (value : List Char) : Option (List Char) :=
    match value.reverse with
    | 'x' :: 'p' :: rest => some rest.reverse
    | _ => none

def readWeight? (value : List Char) : Option FontWeight :=
  FontWeight.ofName? (String.ofList (Text.asciiLower value))

def readFlag (value : List Char) : Bool :=
  ["true", "1", "yes"].contains (String.ofList (Text.asciiLower value))

def onNode (d : Declaration) (patch : NodeStylePatch) : NodeStylePatch :=
  match String.ofList d.name with
  | "fill" => { patch with background := some (String.ofList d.value) }
  | "stroke" => { patch with borderColor := some (String.ofList d.value) }
  | "stroke-width" => { patch with borderWidth := (readSize? d.value).or patch.borderWidth }
  | "color" => { patch with textColor := some (String.ofList d.value) }
  | "font-size" => { patch with fontSize := (readSize? d.value).or patch.fontSize }
  | "font-weight" => { patch with fontWeight := (readWeight? d.value).or patch.fontWeight }
  | _ => patch

def onEdge (d : Declaration) (patch : EdgeStylePatch) : EdgeStylePatch :=
  match String.ofList d.name with
  | "stroke" => { patch with strokeColor := some (String.ofList d.value) }
  | "stroke-width" => { patch with strokeWidth := (readSize? d.value).or patch.strokeWidth }
  | "stroke-dasharray" => { patch with dashes := some (String.ofList d.value) }
  | "animated" => { patch with animated := some (readFlag d.value) }
  | _ => patch

def nodePatch (declarations : List Declaration) : NodeStylePatch :=
  declarations.foldl (fun patch d => d.onNode patch) {}

def edgePatch (declarations : List Declaration) : EdgeStylePatch :=
  declarations.foldl (fun patch d => d.onEdge patch) {}

end Declaration
end Flowchart
