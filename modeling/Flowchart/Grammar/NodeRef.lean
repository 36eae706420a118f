import Flowchart.Grammar.Identifier
import Flowchart.Grammar.Shape
import Flowchart.Text.Blank

/-!
References to nodes: an identifier alone, or followed by the label in its delimiters.
-/
namespace Flowchart

structure NodeRef where
  id : List Char
  /-- The shape and the label, where the text describes them. -/
  described : Option (NodeShape × List Char)
deriving DecidableEq

namespace NodeRef

def label (ref : NodeRef) : List Char :=
  match ref.described with
  | some (_, label) => label
  | none => ref.id

def shape (ref : NodeRef) : NodeShape :=
  match ref.described with
  | some (shape, _) => shape
  | none => .rectangle

/-- Reads a text that holds nothing but one reference and blanks. -/
def read? (s : List Char) : Option NodeRef := do
  let (id, rest) ← Identifier.take? (Text.trim s)
  match Text.trim rest with
  | [] => some ⟨id, none⟩
  | definition => (NodeShape.match? definition).map fun described => ⟨id, some described⟩

end NodeRef
end Flowchart
