import Flowchart.Proofs.Diagram.StyleText

/-! The text of a style gives back the style exactly if the texts in which it differs from the standard
one survive between commas. It then declares the properties in which the style differs and no others. -/
namespace Flowchart

open Declaration Diagram

section Kept

instance (value : List Char) : Decidable (IsValue value) :=
  decidable_of_iff (value ≠ [] ∧ Text.trim value = value ∧ ',' ∉ value)
    ⟨fun ⟨h₁, h₂, h₃⟩ => ⟨h₁, h₂, h₃⟩, fun ⟨h₁, h₂, h₃⟩ => ⟨h₁, h₂, h₃⟩⟩

/-- The texts that differ from the standard ones are not empty, have no blanks at their ends, and hold no
comma. -/
structure NodeStyle.IsKept (style : NodeStyle) : Prop where
  background : style.background ≠ standard.background → IsValue style.background.toList
  borderColor : style.borderColor ≠ standard.borderColor → IsValue style.borderColor.toList
  textColor : style.textColor ≠ standard.textColor → IsValue style.textColor.toList

/-- The colour, if it differs from the standard one, and the dashes, if there are any, are not empty, have
no blanks at their ends, and hold no comma. -/
structure EdgeStyle.IsKept (style : EdgeStyle) : Prop where
  strokeColor : style.strokeColor ≠ standard.strokeColor → IsValue style.strokeColor.toList
  dashes : ∀ dashes ∈ style.dashes, IsValue dashes.toList

theorem isValue_of_getD_eq {P : Type} {step : Declaration → P → P} {name s : List Char}
    {get : P → Option String} (hf : IsField step name get (some <| String.ofList ·)) {p : P}
    (hp : get p = none) {standard value : String}
    (h : (get ((readAll s).foldl (fun p d => step d p) p)).getD standard = value)
    (hne : value ≠ standard) : IsValue value.toList := by
  cases hget : get ((readAll s).foldl (fun p d => step d p) p) with
  | none =>
    rw [hget] at h
    exact absurd h.symm hne
  | some text =>
    rw [hget, Option.getD_some] at h
    obtain ⟨d, hd, htext⟩ := hf.exists_of_get_foldl hp hget
    rw [← h, ← htext]
    exact (isValue_of_mem_readAll hd).1

theorem NodeStyle.isKept_of_patched_eq {style : NodeStyle} {s : List Char}
    (h : standard.patched (nodePatch (readAll s)) = style) : style.IsKept where
  background := isValue_of_getD_eq NodeStylePatch.isField_background rfl (congrArg background h)
  borderColor := isValue_of_getD_eq NodeStylePatch.isField_borderColor rfl (congrArg borderColor h)
  textColor := isValue_of_getD_eq NodeStylePatch.isField_textColor rfl (congrArg textColor h)

theorem EdgeStyle.isKept_of_patched_eq {style : EdgeStyle} {s : List Char}
    (h : standard.patched (edgePatch (readAll s)) = style) : style.IsKept where
  strokeColor := isValue_of_getD_eq EdgeStylePatch.isField_strokeColor rfl (congrArg strokeColor h)
  dashes := by
    intro dashes hdashes
    have hread : (edgePatch (readAll s)).dashes.or none = style.dashes :=
      congrArg EdgeStyle.dashes h
    rw [Option.or_none, hdashes] at hread
    obtain ⟨d, hd, htext⟩ := EdgeStylePatch.isField_dashes.exists_of_get_foldl rfl hread
    rw [← htext]
    exact (isValue_of_mem_readAll hd).1

end Kept

section Read

theorem isName_of_mem_declared {α : Type} [DecidableEq α] {name : String} {standard value : α}
    {text : α → List Char} {d : Declaration} (hd : d ∈ declared name standard text value)
    (hn : name ∈ fieldNames) (hv : value ≠ standard → IsValue (text value)) :
    IsName d.name ∧ IsValue d.value := by
  obtain ⟨hne, rfl⟩ := mem_declared.mp hd
  exact ⟨isName_of_mem_fieldNames hn, hv hne⟩

theorem NodeStyle.IsKept.readAll_nodeStyleText {style : NodeStyle} (h : style.IsKept) :
    readAll (nodeStyleText style) = nodeDeclared style := by
  rw [nodeStyleText_eq]
  refine readAll_toText fun d hd => ?_
  simp only [nodeDeclared, List.mem_append] at hd
  rcases hd with ((((hd | hd) | hd) | hd) | hd) | hd
  · exact isName_of_mem_declared hd (by decide) h.background
  · exact isName_of_mem_declared hd (by decide) h.borderColor
  · exact isName_of_mem_declared hd (by decide) h.textColor
  · exact isName_of_mem_declared hd (by decide) fun _ => isValue_sizeText.1
  · exact isName_of_mem_declared hd (by decide) fun _ => isValue_sizeText.1
  · exact isName_of_mem_declared hd (by decide) fun _ => (isValue_weightText _).1

theorem EdgeStyle.IsKept.readAll_edgeStyleText {style : EdgeStyle} (h : style.IsKept) :
    readAll (edgeStyleText style) = edgeDeclared style := by
  rw [edgeStyleText_eq]
  refine readAll_toText fun d hd => ?_
  simp only [edgeDeclared, List.mem_append] at hd
  rcases hd with ((hd | hd) | hd) | hd
  · exact isName_of_mem_declared hd (by decide) h.strokeColor
  · exact isName_of_mem_declared hd (by decide) fun _ => isValue_sizeText.1
  · refine isName_of_mem_declared hd (by decide) fun hne => ?_
    obtain ⟨dashes, hdashes⟩ := Option.ne_none_iff_exists'.mp hne
    rw [hdashes]
    exact h.dashes dashes hdashes
  · exact isName_of_mem_declared hd (by decide) fun _ => (isValue_flagText _).1

end Read

section Differences

def differing {α : Type} [DecidableEq α] (property : String) (standard value : α) : List String :=
  if value = standard then [] else [property]

def NodeStyle.differences (style : NodeStyle) : List String :=
  differing "fill" standard.background style.background ++
  differing "stroke" standard.borderColor style.borderColor ++
  differing "color" standard.textColor style.textColor ++
  differing "stroke-width" standard.borderWidth style.borderWidth ++
  differing "font-size" standard.fontSize style.fontSize ++
  differing "font-weight" standard.fontWeight style.fontWeight

def EdgeStyle.differences (style : EdgeStyle) : List String :=
  differing "stroke" standard.strokeColor style.strokeColor ++
  differing "stroke-width" standard.strokeWidth style.strokeWidth ++
  differing "stroke-dasharray" standard.dashes style.dashes ++
  differing "animated" standard.animated style.animated

theorem map_name_declared_eq {α : Type} [DecidableEq α] (name : String) (standard : α)
    (text : α → List Char) (value : α) : (declared name standard text value).map (·.name) =
      (differing name standard value).map String.toList := by
  unfold declared differing
  split_ifs <;> rfl

end Differences

/-- Put over the standard style, what is read from the text of a style gives it back exactly if its
texts survive between commas, whatever its sizes are; and then the text declares just the properties in
which the style differs from the standard one. -/
theorem patched_readAll_iff :
    (∀ style : NodeStyle,
      (NodeStyle.standard.patched (nodePatch (readAll (nodeStyleText style))) = style ↔
        style.IsKept) ∧
      (style.IsKept → (readAll (nodeStyleText style)).map (·.name) =
        style.differences.map String.toList)) ∧
    ∀ style : EdgeStyle,
      (EdgeStyle.standard.patched (edgePatch (readAll (edgeStyleText style))) = style ↔
        style.IsKept) ∧
      (style.IsKept → (readAll (edgeStyleText style)).map (·.name) =
        style.differences.map String.toList) := by
  refine ⟨fun style => ⟨⟨NodeStyle.isKept_of_patched_eq, fun h => ?_⟩, fun h => ?_⟩,
    fun style => ⟨⟨EdgeStyle.isKept_of_patched_eq, fun h => ?_⟩, fun h => ?_⟩⟩
  · rw [h.readAll_nodeStyleText, style.patched_nodePatch]
  · simp only [h.readAll_nodeStyleText, nodeDeclared, NodeStyle.differences, List.map_append,
      map_name_declared_eq]
  · rw [h.readAll_edgeStyleText, style.patched_edgePatch]
  · simp only [h.readAll_edgeStyleText, edgeDeclared, EdgeStyle.differences, List.map_append,
      map_name_declared_eq]

/-- A colour that closes a declaration of its own and opens another one. -/
def smugglingStyle : EdgeStyle :=
  { EdgeStyle.standard with strokeColor := "red,animated:yes" }

/-- A colour with colons, semicolons and a blank, and a size. -/
def motleyStyle : NodeStyle :=
  { NodeStyle.standard with background := "url(a: b);:", fontSize := 20 }

/-- The comma lets the edge become animated, while colons and semicolons do no harm. -/
theorem patched_readAll_smugglingStyle :
    EdgeStyle.standard.patched (edgePatch (readAll (edgeStyleText smugglingStyle))) ≠
        smugglingStyle ∧
      motleyStyle.IsKept ∧
      NodeStyle.standard.patched (nodePatch (readAll (nodeStyleText motleyStyle))) = motleyStyle ∧
      (readAll (nodeStyleText motleyStyle)).map (·.name) =
        ["fill".toList, "font-size".toList] := by
  have hkept : motleyStyle.IsKept := by
    constructor
    · intro _
      decide +kernel
    · intro hne
      exact absurd rfl hne
    · intro hne
      exact absurd rfl hne
  obtain ⟨hback, hnames⟩ := patched_readAll_iff.1 motleyStyle
  refine ⟨fun h => ?_, hkept, hback.mpr hkept, (hnames hkept).trans (by decide +kernel)⟩
  have hcolor := ((patched_readAll_iff.2 smugglingStyle).1.mp h).strokeColor (by decide)
  exact absurd hcolor (by decide +kernel)

end Flowchart
