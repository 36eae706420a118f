import Flowchart.Proofs.Grammar.Delimiters

/-! The grammar of references to nodes. Blanks around it apart, a reference is an identifier, or an
identifier, blanks and a label in delimiters that keep it. These texts are read and no others, and
each is put together in one way only. -/
namespace Flowchart

open Text

namespace NodeDefinition

theorem not_isWord_text (d : NodeDefinition) : ¬Identifier.IsWord d.text := by
  intro hword
  have hbare := Identifier.take?_of_isWord hword
  rw [d.take?_text] at hbare
  simp [NodeShape.wrap_ne_nil] at hbare

theorem text_injective : Function.Injective text := by
  intro d e h
  have htake : (d.id, d.gap ++ d.shape.wrap d.label) = (e.id, e.gap ++ e.shape.wrap e.label) := by
    apply Option.some.inj
    rw [← d.take?_text, h, e.take?_text]
  obtain ⟨hid, hrest⟩ := Prod.mk.inj htake
  have hwrap : d.shape.wrap d.label = e.shape.wrap e.label := by
    rw [← d.trim_rest, hrest, e.trim_rest]
  have hgap : d.gap = e.gap := by
    rw [hwrap] at hrest
    exact List.append_cancel_right hrest
  have hmatch : (d.shape, d.label) = (e.shape, e.label) := by
    apply Option.some.inj
    rw [← NodeShape.match?_wrap d.keeps_label, hwrap, NodeShape.match?_wrap e.keeps_label]
  obtain ⟨hshape, hlabel⟩ := Prod.mk.inj hmatch
  exact NodeDefinition.ext hid hgap hshape hlabel

end NodeDefinition

namespace NodeRef

variable {s : List Char}

theorem read?_eq_none_iff : read? s = none ↔
    ¬Identifier.IsWord (trim s) ∧ ∀ d : NodeDefinition, d.text ≠ trim s := by
  rw [Option.eq_none_iff_forall_ne_some]
  constructor
  · intro h
    refine ⟨fun hword => ?_, fun d hd => ?_⟩
    · exact h _ (read?_of_isWord hword)
    · exact h _ (read?_of_definition d hd)
  · rintro ⟨hword, hdefinition⟩ ref hread
    rcases cases_of_read? hread with ⟨h, -⟩ | ⟨d, hd, -⟩
    · exact hword h
    · exact hdefinition d hd

def said (ref : NodeRef) : List Char × List Char × NodeShape × Bool :=
  (ref.id, ref.label, ref.shape, ref.described.isSome)

/-- A text is read as a reference exactly as the grammar has it: an identifier alone says a rectangle
labelled with it, a definition its own parts, and all other texts are refused. A text is a definition in
one way at most, and none is an identifier as well. The last part says which labels the delimiters keep
that a definition holds. -/
theorem read?_iff_grammar (s : List Char) :
    (∀ id label shape, (read? s).map said = some (id, label, shape, false) ↔
      Identifier.IsWord (trim s) ∧ id = trim s ∧ label = trim s ∧ shape = .rectangle) ∧
    (∀ id label shape, (read? s).map said = some (id, label, shape, true) ↔
      ∃ d : NodeDefinition, d.text = trim s ∧ d.id = id ∧ d.label = label ∧ d.shape = shape) ∧
    (read? s = none ↔ ¬Identifier.IsWord (trim s) ∧ ∀ d : NodeDefinition, d.text ≠ trim s) ∧
    (∀ d : NodeDefinition, ¬Identifier.IsWord d.text ∧
      ∀ e : NodeDefinition, d.text = e.text → d = e) ∧
    (∀ shape : NodeShape, ∀ label, shape.keeps label = true ↔
      label ≠ [] ∧ '\n' ∉ label ∧ ∀ ends ∈ shape.takenEnds, ¬NodeShape.HasEnds ends label) := by
  refine ⟨fun id label shape => ?_, fun id label shape => ?_, read?_eq_none_iff,
    fun d => ⟨d.not_isWord_text, fun e h => NodeDefinition.text_injective h⟩,
    fun shape label => NodeShape.keeps_iff⟩
  · rw [Option.map_eq_some_iff]
    constructor
    · rintro ⟨ref, hread, hsaid⟩
      rcases cases_of_read? hread with ⟨hword, rfl⟩ | ⟨d, -, rfl⟩
      · cases hsaid
        exact ⟨hword, rfl, rfl, rfl⟩
      · cases hsaid
    · rintro ⟨hword, rfl, rfl, rfl⟩
      exact ⟨_, read?_of_isWord hword, rfl⟩
  · rw [Option.map_eq_some_iff]
    constructor
    · rintro ⟨ref, hread, hsaid⟩
      rcases cases_of_read? hread with ⟨-, rfl⟩ | ⟨d, hd, rfl⟩
      · cases hsaid
      · cases hsaid
        exact ⟨d, hd, rfl, rfl, rfl⟩
    · rintro ⟨d, hd, rfl, rfl, rfl⟩
      exact ⟨_, read?_of_definition d hd, rfl⟩

/-- Between blanks of other scripts a stadium is read that holds a label in round brackets. A rounded
label in square brackets would make the same text, but it is not kept, so no definition has it. Behind
the delimiters nothing may follow. -/
theorem read?_nestedBrackets :
    (read? "\u00a0Node_1\u2003([(x)])\u3000".toList).map said =
      some ("Node_1".toList, "(x)".toList, .stadium, true) ∧
    "([(x)])".toList = NodeShape.rounded.wrap "[(x)]".toList ∧
    (∀ d : NodeDefinition, d.text = "Node_1\u2003([(x)])".toList → d.shape = .stadium) ∧
    (∀ d : NodeDefinition, d.text ≠ "A[x] y".toList) := by
  have hkeeps : NodeShape.stadium.keeps "(x)".toList = true :=
    ((read?_iff_grammar []).2.2.2.2 _ _).mpr ⟨by decide, by decide, by decide⟩
  let d : NodeDefinition := ⟨"Node_1".toList, ['\u2003'], .stadium, "(x)".toList,
    ⟨'N', "ode_1".toList, by decide, by decide, by decide⟩, by decide, hkeeps⟩
  have htext : d.text = "Node_1\u2003([(x)])".toList := rfl
  have htrim : trim "\u00a0Node_1\u2003([(x)])\u3000".toList = "Node_1\u2003([(x)])".toList := by
    decide
  refine ⟨?_, by decide, fun e he => ?_, ?_⟩
  · exact ((read?_iff_grammar _).2.1 _ _ _).mpr ⟨d, htext.trans htrim.symm, rfl, rfl, rfl⟩
  · have hsame : d = e := ((read?_iff_grammar []).2.2.2.1 d).2 e (htext.trans he.symm)
    rw [← hsame]
  · exact ((read?_iff_grammar "A[x] y".toList).2.2.1.mp (by decide)).2

end NodeRef
end Flowchart
