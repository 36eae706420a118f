import Flowchart.Diagram.Statement
import Flowchart.Diagram.Writer
import Flowchart.Proofs.Grammar.Declaration
import Flowchart.Proofs.Number.NumeralText

/-! The declarations written for a style say exactly in which fields it differs from the standard
one, and reading them back puts these fields over the standard style. -/
namespace Flowchart

open Declaration Text

namespace Diagram

open NumberedLine (dropSemicolons)

def declared {α : Type} [DecidableEq α] (name : String) (standard : α) (text : α → List Char)
    (value : α) : List Declaration :=
  if value = standard then [] else [⟨name.toList, text value⟩]

theorem map_toText_declared {α : Type} [DecidableEq α] (name : String) (standard : α)
    (text : α → List Char) (value : α) :
    (declared name standard text value).map toText = declare name standard text value := by
  unfold declared declare
  split_ifs <;> rfl

theorem mem_declared {α : Type} [DecidableEq α] {name : String} {standard : α}
    {text : α → List Char} {value : α} {d : Declaration} :
    d ∈ declared name standard text value ↔
      value ≠ standard ∧ d = ⟨name.toList, text value⟩ := by
  unfold declared
  split_ifs with h <;> simp [h]

def nodeDeclared (style : NodeStyle) : List Declaration :=
  declared "fill" NodeStyle.standard.background String.toList style.background ++
  declared "stroke" NodeStyle.standard.borderColor String.toList style.borderColor ++
  declared "color" NodeStyle.standard.textColor String.toList style.textColor ++
  declared "stroke-width" NodeStyle.standard.borderWidth sizeText style.borderWidth ++
  declared "font-size" NodeStyle.standard.fontSize sizeText style.fontSize ++
  declared "font-weight" NodeStyle.standard.fontWeight (·.name.toList) style.fontWeight

def edgeDeclared (style : EdgeStyle) : List Declaration :=
  declared "stroke" EdgeStyle.standard.strokeColor String.toList style.strokeColor ++
  declared "stroke-width" EdgeStyle.standard.strokeWidth sizeText style.strokeWidth ++
  declared "stroke-dasharray" EdgeStyle.standard.dashes (fun s => (s.getD "").toList) style.dashes ++
  declared "animated" EdgeStyle.standard.animated flagText style.animated

def styleText (ds : List Declaration) : List Char :=
  joinWith [','] (ds.map toText)

theorem nodeDeclarations_eq (style : NodeStyle) :
    nodeDeclarations style = (nodeDeclared style).map toText := by
  simp only [nodeDeclarations, nodeDeclared, List.map_append, map_toText_declared]

theorem edgeDeclarations_eq (style : EdgeStyle) :
    edgeDeclarations style = (edgeDeclared style).map toText := by
  obtain ⟨color, width, dashes, animated⟩ := style
  simp only [edgeDeclarations, edgeDeclared, List.map_append, map_toText_declared]
  cases dashes with
  | none => simp [declare, EdgeStyle.standard]
  | some dashes =>
    have hname : "stroke-dasharray:".toList = "stroke-dasharray".toList ++ [':'] := by decide +kernel
    simp [declare, EdgeStyle.standard, hname]

theorem nodeStyleText_eq (style : NodeStyle) :
    nodeStyleText style = styleText (nodeDeclared style) := by
  rw [nodeStyleText, nodeDeclarations_eq, styleText]

theorem edgeStyleText_eq (style : EdgeStyle) :
    edgeStyleText style = styleText (edgeDeclared style) := by
  rw [edgeStyleText, edgeDeclarations_eq, styleText]

end Diagram

private theorem name_eq_iff {d : Declaration} {s : String} :
    d.name = s.toList ↔ String.ofList d.name = s := by
  constructor
  · intro h
    rw [h, String.ofList_toList]
  · rintro rfl
    rw [String.toList_ofList]

namespace NodeStylePatch

/-- Each property sets one field, where its value is usable. -/
theorem fields_onNode : IsField onNode "fill".toList background (some <| String.ofList ·) ∧
    IsField onNode "stroke".toList borderColor (some <| String.ofList ·) ∧
    IsField onNode "stroke-width".toList borderWidth readSize? ∧
    IsField onNode "color".toList textColor (some <| String.ofList ·) ∧
    IsField onNode "font-size".toList fontSize readSize? ∧
    IsField onNode "font-weight".toList fontWeight readWeight? := by
  simp only [Declaration.IsField, ← forall_and]
  intro d p
  simp only [name_eq_iff, onNode]
  split <;> simp_all

theorem isField_background : IsField onNode "fill".toList background (some <| String.ofList ·) :=
  fields_onNode.1

theorem isField_borderColor :
    IsField onNode "stroke".toList borderColor (some <| String.ofList ·) :=
  fields_onNode.2.1

theorem isField_borderWidth : IsField onNode "stroke-width".toList borderWidth readSize? :=
  fields_onNode.2.2.1

theorem isField_textColor : IsField onNode "color".toList textColor (some <| String.ofList ·) :=
  fields_onNode.2.2.2.1

theorem isField_fontSize : IsField onNode "font-size".toList fontSize readSize? :=
  fields_onNode.2.2.2.2.1

theorem isField_fontWeight : IsField onNode "font-weight".toList fontWeight readWeight? :=
  fields_onNode.2.2.2.2.2

end NodeStylePatch

namespace EdgeStylePatch

theorem fields_onEdge : IsField onEdge "stroke".toList strokeColor (some <| String.ofList ·) ∧
    IsField onEdge "stroke-width".toList strokeWidth readSize? ∧
    IsField onEdge "stroke-dasharray".toList dashes (some <| String.ofList ·) ∧
    IsField onEdge "animated".toList animated (some <| readFlag ·) := by
  simp only [Declaration.IsField, ← forall_and]
  intro d p
  simp only [name_eq_iff, onEdge]
  split <;> simp_all

theorem isField_strokeColor :
    IsField onEdge "stroke".toList strokeColor (some <| String.ofList ·) :=
  fields_onEdge.1

theorem isField_strokeWidth : IsField onEdge "stroke-width".toList strokeWidth readSize? :=
  fields_onEdge.2.1

theorem isField_dashes :
    IsField onEdge "stroke-dasharray".toList dashes (some <| String.ofList ·) :=
  fields_onEdge.2.2.1

theorem isField_animated : IsField onEdge "animated".toList animated (some <| readFlag ·) :=
  fields_onEdge.2.2.2

end EdgeStylePatch

def NodeStyle.IsWhole (style : NodeStyle) : Prop :=
  style.borderWidth.toInt?.isSome ∧ style.fontSize.toInt?.isSome

def EdgeStyle.IsWhole (style : EdgeStyle) : Prop :=
  style.strokeWidth.toInt?.isSome

instance (style : NodeStyle) : Decidable style.IsWhole :=
  inferInstanceAs (Decidable (style.borderWidth.toInt?.isSome ∧ style.fontSize.toInt?.isSome))

instance (style : EdgeStyle) : Decidable style.IsWhole :=
  inferInstanceAs (Decidable style.strokeWidth.toInt?.isSome)

/-- The value is the standard one or can be written as a declaration on a line. -/
def IsDeclarable (standard value : String) : Prop :=
  value = standard ∨ IsValue value.toList ∧ OneLine value.toList

structure NodeStyle.IsDeclarable (style : NodeStyle) : Prop where
  background : Flowchart.IsDeclarable standard.background style.background
  borderColor : Flowchart.IsDeclarable standard.borderColor style.borderColor
  textColor : Flowchart.IsDeclarable standard.textColor style.textColor

structure EdgeStyle.IsDeclarable (style : EdgeStyle) : Prop where
  strokeColor : Flowchart.IsDeclarable standard.strokeColor style.strokeColor
  dashes : ∀ dashes ∈ style.dashes, IsValue dashes.toList ∧ OneLine dashes.toList

namespace Diagram

open NumberedLine (dropSemicolons)

section Texts

def fieldNames : List String :=
  ["fill", "stroke", "color", "stroke-width", "font-size", "font-weight", "stroke-dasharray",
   "animated"]

theorem chars_of_mem_fieldNames : ∀ name ∈ fieldNames, name.toList ≠ [] ∧ ∀ c ∈ name.toList,
    isBlank c = false ∧ c ≠ ',' ∧ c ≠ ':' ∧ (c.toNat < 65 ∨ 90 < c.toNat ∧ c.toNat < 192) := by
  decide +kernel

theorem isBlank_of_mem_fieldNames {name : String} (h : name ∈ fieldNames) :
    ∀ c ∈ name.toList, isBlank c = false ∧ c ≠ ',' :=
  fun c hc => ⟨((chars_of_mem_fieldNames name h).2 c hc).1,
    ((chars_of_mem_fieldNames name h).2 c hc).2.1⟩

theorem isName_of_mem_fieldNames {name : String} (h : name ∈ fieldNames) : IsName name.toList := by
  obtain ⟨hne, hchars⟩ := chars_of_mem_fieldNames name h
  have htrim : trim name.toList = name.toList :=
    trim_eq_self (fun c hc => (hchars c (List.mem_of_mem_head? hc)).1)
      fun c hc => (hchars c (List.mem_of_mem_getLast? hc)).1
  refine ⟨hne, ?_, fun hc => (hchars _ hc).2.1 rfl, fun hc => (hchars _ hc).2.2.1 rfl⟩
  rw [htrim]
  exact lower_eq_self fun c hc => (hchars c hc).2.2.2

theorem oneLine_of_mem_fieldNames {name : String} (h : name ∈ fieldNames) : OneLine name.toList :=
  oneLine_of_not_isBlank fun c hc => (isBlank_of_mem_fieldNames h c hc).1

theorem isBlank_of_mem_sizeText {x : Binary64} :
    ∀ c ∈ sizeText x, isBlank c = false ∧ c ≠ ',' := by
  intro c hc
  simp only [sizeText, List.mem_append, List.mem_cons, List.not_mem_nil, or_false] at hc
  rcases hc with hc | rfl | rfl
  · exact (Binary64.isNumeralChar_of_mem_plainText c hc).fits
  · decide
  · decide

theorem isValue_of_not_isBlank {s : List Char} (hne : s ≠ [])
    (h : ∀ c ∈ s, isBlank c = false ∧ c ≠ ',') : IsValue s ∧ OneLine s := by
  refine ⟨⟨hne, ?_, fun hc => (h _ hc).2 rfl⟩, oneLine_of_not_isBlank fun c hc => (h c hc).1⟩
  exact trim_eq_self (fun c hc => (h c (List.mem_of_mem_head? hc)).1)
    fun c hc => (h c (List.mem_of_getLast? hc)).1

theorem isValue_sizeText {x : Binary64} : IsValue (sizeText x) ∧ OneLine (sizeText x) :=
  isValue_of_not_isBlank (by simp [sizeText]) isBlank_of_mem_sizeText

theorem isValue_weightText (weight : FontWeight) :
    IsValue weight.name.toList ∧ OneLine weight.name.toList := by
  cases weight <;> exact isValue_of_not_isBlank (by decide) (by decide)

theorem isValue_flagText (b : Bool) : IsValue (flagText b) ∧ OneLine (flagText b) := by
  cases b <;> exact isValue_of_not_isBlank (by decide) (by decide)

/-- The declaration is one that is written for a style whose values can be declared. -/
structure IsWritten (d : Declaration) : Prop where
  name_mem : ∃ name ∈ fieldNames, d.name = name.toList
  isValue : IsValue d.value
  oneLine : OneLine d.value

theorem isWritten_of_mem_declared {α : Type} [DecidableEq α] {name : String} {standard : α}
    {text : α → List Char} {value : α} {d : Declaration}
    (hd : d ∈ declared name standard text value) (hn : name ∈ fieldNames)
    (hv : value ≠ standard → IsValue (text value) ∧ OneLine (text value)) : IsWritten d := by
  obtain ⟨hne, rfl⟩ := mem_declared.mp hd
  exact ⟨⟨name, hn, rfl⟩, (hv hne).1, (hv hne).2⟩

theorem isWritten_of_mem_nodeDeclared {style : NodeStyle} (hs : style.IsDeclarable) :
    ∀ d ∈ nodeDeclared style, IsWritten d := by
  intro d hd
  simp only [nodeDeclared, List.mem_append] at hd
  rcases hd with ((((hd | hd) | hd) | hd) | hd) | hd
  · exact isWritten_of_mem_declared hd (by decide) hs.background.resolve_left
  · exact isWritten_of_mem_declared hd (by decide) hs.borderColor.resolve_left
  · exact isWritten_of_mem_declared hd (by decide) hs.textColor.resolve_left
  · exact isWritten_of_mem_declared hd (by decide) (fun _ => isValue_sizeText)
  · exact isWritten_of_mem_declared hd (by decide) (fun _ => isValue_sizeText)
  · exact isWritten_of_mem_declared hd (by decide) (fun _ => isValue_weightText _)

theorem isWritten_of_mem_edgeDeclared {style : EdgeStyle} (hs : style.IsDeclarable) :
    ∀ d ∈ edgeDeclared style, IsWritten d := by
  intro d hd
  simp only [edgeDeclared, List.mem_append] at hd
  rcases hd with ((hd | hd) | hd) | hd
  · exact isWritten_of_mem_declared hd (by decide) hs.strokeColor.resolve_left
  · exact isWritten_of_mem_declared hd (by decide) (fun _ => isValue_sizeText)
  · have hdashes : style.dashes ≠ none →
        IsValue (style.dashes.getD "").toList ∧ OneLine (style.dashes.getD "").toList := by
      intro hne
      obtain ⟨dashes, he⟩ := Option.ne_none_iff_exists'.mp hne
      simpa [he] using hs.dashes dashes he
    exact isWritten_of_mem_declared hd (by decide) hdashes
  · exact isWritten_of_mem_declared hd (by decide) (fun _ => isValue_flagText _)

end Texts

section Written

variable {ds : List Declaration} {d : Declaration}

theorem IsWritten.isName (h : IsWritten d) : IsName d.name := by
  obtain ⟨name, hn, he⟩ := h.name_mem
  rw [he]
  exact isName_of_mem_fieldNames hn

theorem IsWritten.oneLine_toText (h : IsWritten d) : OneLine d.toText := by
  obtain ⟨name, hn, he⟩ := h.name_mem
  have hc : isLineBreak ':' = false := by decide
  simp [toText, he, oneLine_of_mem_fieldNames hn, h.oneLine, hc]

theorem readAll_written (h : ∀ d ∈ ds, IsWritten d) :
    readAll (styleText ds) = ds :=
  readAll_toText fun d hd => ⟨(h d hd).isName, (h d hd).isValue⟩

theorem oneLine_written (h : ∀ d ∈ ds, IsWritten d) :
    OneLine (styleText ds) := by
  refine oneLine_joinWith (by decide) fun part hp => ?_
  obtain ⟨d, hd, rfl⟩ := List.mem_map.mp hp
  exact (h d hd).oneLine_toText

theorem oneLine_nodeStyleText {style : NodeStyle} (h : style.IsDeclarable) :
    OneLine (nodeStyleText style) := by
  rw [nodeStyleText_eq]
  exact oneLine_written (isWritten_of_mem_nodeDeclared h)

theorem oneLine_edgeStyleText {style : EdgeStyle} (h : style.IsDeclarable) :
    OneLine (edgeStyleText style) := by
  rw [edgeStyleText_eq]
  exact oneLine_written (isWritten_of_mem_edgeDeclared h)

theorem IsWritten.exists_name (h : IsWritten d) :
    ∃ c rest, d.name = c :: rest ∧ isBlank c = false ∧ c ≠ ',' := by
  obtain ⟨name, hn, he⟩ := h.name_mem
  cases hd : d.name with
  | nil => exact absurd hd h.isName.ne_nil
  | cons c rest =>
    refine ⟨c, rest, rfl, isBlank_of_mem_fieldNames hn c ?_⟩
    rw [← he, hd]
    exact List.mem_cons_self

theorem exists_styleText_concat (ds : List Declaration) :
    ∃ front, ∀ d, styleText (ds ++ [d]) = front ++ d.toText := by
  obtain ⟨front, hf⟩ := exists_joinWith_concat [','] (ds.map toText)
  exact ⟨front, fun d => by rw [styleText, List.map_append, List.map_singleton, hf]⟩

theorem dropSemicolons_append_colon (s t : List Char) :
    dropSemicolons (s ++ ':' :: t) = s ++ ':' :: dropSemicolons t := by
  have hb : isBlank ':' = false := by decide
  have hs := dropEndWhile_append_cons (p := (· == ';')) (c := ':') (by decide)
  rw [dropSemicolons, hs, dropEndWhile_append_cons hb, dropSemicolons]

/-- Semicolons at the end never reach beyond the last colon. -/
theorem dropSemicolons_append_styleText (s : List Char) (hne : ds ≠ []) :
    dropSemicolons (s ++ styleText ds) = s ++ dropSemicolons (styleText ds) := by
  obtain ⟨others, d, rfl⟩ := (List.eq_nil_or_concat ds).resolve_left hne
  obtain ⟨front, hf⟩ := exists_styleText_concat others
  rw [List.concat_eq_append, hf, toText]
  rw [← List.append_assoc front, dropSemicolons_append_colon, ← List.append_assoc,
    dropSemicolons_append_colon, List.append_assoc]

theorem dropSemicolons_isPrefix (s : List Char) : dropSemicolons s <+: s :=
  (dropEndWhile_isPrefix isBlank _).trans (dropEndWhile_isPrefix _ _)

theorem exists_written (h : ∀ d ∈ ds, IsWritten d) (hne : ds ≠ []) :
    ∃ c rest, styleText ds = c :: rest ∧ isBlank c = false ∧ c ≠ ',' := by
  obtain ⟨d, ds, rfl⟩ := List.exists_cons_of_ne_nil hne
  obtain ⟨c, rest, hd, hc⟩ := (h d (by simp)).exists_name
  cases ds <;> simp [styleText, joinWith, toText, hd, hc]

theorem getLast?_written (h : IsWritten d) (ds : List Declaration) :
    (styleText (ds ++ [d])).getLast? = d.value.getLast? := by
  obtain ⟨front, hf⟩ := exists_styleText_concat ds
  obtain ⟨c, rest, hv⟩ := List.exists_cons_of_ne_nil h.isValue.ne_nil
  rw [hf, toText, hv]
  simp [List.getLast?_append, List.getLast?_cons]

theorem styleText_eq_nil_iff (h : ∀ d ∈ ds, IsWritten d) : styleText ds = [] ↔ ds = [] := by
  constructor
  · intro hnil
    by_contra hne
    obtain ⟨c, rest, hs, -⟩ := exists_written h hne
    simp [hnil] at hs
  · rintro rfl
    rfl

theorem exists_of_getLast?_written {c : Char} (h : ∀ d ∈ ds, IsWritten d)
    (hc : (styleText ds).getLast? = some c) : ∃ d ∈ ds, d.value.getLast? = some c := by
  rcases List.eq_nil_or_concat ds with rfl | ⟨others, d, rfl⟩
  · simp [styleText, joinWith] at hc
  · have hd := h d (by simp)
    rw [List.concat_eq_append, getLast?_written hd] at hc
    exact ⟨d, by simp, hc⟩

theorem isBlank_getLast?_written (h : ∀ d ∈ ds, IsWritten d) :
    ∀ c ∈ (styleText ds).getLast?, isBlank c = false := by
  intro c hc
  obtain ⟨d, hd, hlast⟩ := exists_of_getLast?_written h hc
  rw [← (h d hd).isValue.trimmed] at hlast
  exact getLast?_trim hlast

theorem dropSemicolons_written (h : ∀ d ∈ ds, IsWritten d)
    (hend : (styleText ds).getLast? ≠ some ';') : dropSemicolons (styleText ds) = styleText ds := by
  have hs : dropEndWhile (· == ';') (styleText ds) = styleText ds := by
    refine dropEndWhile_eq_self fun c hc => ?_
    rw [beq_eq_false_iff_ne]
    rintro rfl
    exact hend hc
  rw [dropSemicolons, hs]
  exact dropEndWhile_eq_self (isBlank_getLast?_written h)

theorem exists_dropSemicolons_written (h : ∀ d ∈ ds, IsWritten d) (hne : ds ≠ []) :
    ∃ c rest, dropSemicolons (styleText ds) = c :: rest ∧ isBlank c = false ∧ c ≠ ',' := by
  obtain ⟨c, rest, hs, hc, hcomma⟩ := exists_written h hne
  obtain ⟨others, d, rfl⟩ := (List.eq_nil_or_concat ds).resolve_left hne
  obtain ⟨front, hf⟩ := exists_styleText_concat others
  rw [List.concat_eq_append] at hs ⊢
  have hpre := dropSemicolons_isPrefix (styleText (others ++ [d]))
  have hne' : dropSemicolons (styleText (others ++ [d])) ≠ [] := by
    rw [hf, toText, ← List.append_assoc, dropSemicolons_append_colon]
    simp
  obtain ⟨b, t, hb⟩ := List.exists_cons_of_ne_nil hne'
  rw [hb, hs, List.cons_prefix_cons] at hpre
  exact ⟨b, t, hb, hpre.1 ▸ hc, hpre.1 ▸ hcomma⟩

end Written

section Fields

theorem filter_declared {α : Type} [DecidableEq α] (name other : String) (standard : α)
    (text : α → List Char) (value : α) :
    (declared name standard text value).filter (fun d => d.name = other.toList) =
      if name = other then declared name standard text value else [] := by
  by_cases hn : name = other
  · rw [if_pos hn, List.filter_eq_self]
    intro d hd
    obtain ⟨-, rfl⟩ := mem_declared.mp hd
    simp [hn]
  · rw [if_neg hn, List.filter_eq_nil_iff]
    intro d hd
    obtain ⟨-, rfl⟩ := mem_declared.mp hd
    simpa [String.toList_inj] using hn

variable {α : Type} [DecidableEq α] {ds : List Declaration} {name : String} {standard value : α}
  (text : α → List Char)

theorem map_name_declared :
    ((declared name standard text value).map (·.name)).Sublist [name.toList] := by
  unfold declared
  split_ifs <;> simp

theorem lastUsable_declared {β : Type} (read : List Char → Option β)
    (hds : ds.filter (fun d => d.name = name.toList) = declared name standard text value) :
    lastUsable name.toList read ds = if value = standard then none else read (text value) := by
  rw [← lastUsable_filter, hds]
  unfold declared
  split_ifs <;> simp [lastUsable]

theorem getD_foldl {P : Type} {step : Declaration → P → P} {get : P → Option α}
    {read : List Char → Option α} {p : P} (hf : IsField step name.toList get read)
    (hp : get p = none)
    (hds : ds.filter (fun d => d.name = name.toList) = declared name standard text value)
    (hread : value ≠ standard → read (text value) = some value) :
    (get (ds.foldl (fun p d => step d p) p)).getD standard = value := by
  rw [hf.get_foldl, hp, Option.or_none, lastUsable_declared text read hds]
  split_ifs with hv
  · exact hv.symm
  · rw [hread hv, Option.getD_some]

/-- What is read once semicolons are taken off the end: the last value may have lost some. -/
theorem readAll_dropSemicolons {d : Declaration} (h : ∀ e ∈ ds ++ [d], IsWritten e) :
    readAll (dropSemicolons (styleText (ds ++ [d]))) =
      ds ++ (if (trim (dropSemicolons d.value)).isEmpty then []
        else [⟨d.name, trim (dropSemicolons d.value)⟩]) := by
  have hd : IsWritten d := h d (by simp)
  have hds : ∀ e ∈ ds, IsWritten e := fun e he => h e (by simp [he])
  obtain ⟨front, hf⟩ := exists_styleText_concat ds
  rw [hf, toText, ← List.append_assoc, dropSemicolons_append_colon, List.append_assoc]
  change readAll (front ++ toText ⟨d.name, dropSemicolons d.value⟩) = _
  rw [← hf, styleText, readAll_joinWith]
  · have hread : ∀ e ∈ ds, (ofPart? ∘ toText) e = some e :=
      fun e he => ofPart?_toText (hds e he).isName (hds e he).isValue
    rw [List.filterMap_map, List.filterMap_append, List.filterMap_congr hread,
      List.filterMap_some, List.append_cancel_left_eq]
    simp only [List.filterMap_cons, List.filterMap_nil, Function.comp_apply, toText,
      ofPart?_append hd.isName]
    split_ifs <;> rfl
  · intro part hp
    obtain ⟨e, he, rfl⟩ := List.mem_map.mp hp
    rcases List.mem_append.mp he with he | he
    · exact comma_not_mem_toText (hds e he).isName (hds e he).isValue
    · have hsub : dropSemicolons d.value ⊆ d.value := (dropSemicolons_isPrefix _).subset
      rw [List.mem_singleton.mp he, toText, List.mem_append, not_or, List.mem_cons, not_or]
      exact ⟨hd.isName.no_comma, by decide, fun hc => hd.isValue.no_comma (hsub hc)⟩

theorem ne_of_lastUsable_dropSemicolons {d : Declaration} (h : ∀ e ∈ ds ++ [d], IsWritten e)
    (hnodup : ((ds ++ [d]).map (·.name)).Nodup) (hd : d.value.getLast? = some ';') :
    ∀ w ∈ lastUsable d.name (some <| String.ofList ·)
      (readAll (dropSemicolons (styleText (ds ++ [d])))), w.toList ≠ d.value := by
  intro w hw
  have hn : ∀ e ∈ ds, e.name ≠ d.name := by
    intro e he hen
    rw [List.map_append, List.nodup_append] at hnodup
    exact hnodup.2.2 _ (List.mem_map_of_mem he) _ (by simp) hen
  have hlast : lastUsable d.name (some <| String.ofList ·)
      (readAll (dropSemicolons (styleText (ds ++ [d])))) =
        some (String.ofList (trim (dropSemicolons d.value))) := by
    rw [readAll_dropSemicolons h] at hw ⊢
    split_ifs at hw ⊢ with he
    · rw [List.append_nil, lastUsable_eq_none hn] at hw
      cases hw
    · have hmem : (⟨d.name, trim (dropSemicolons d.value)⟩ : Declaration) ∈
          ds ++ [⟨d.name, trim (dropSemicolons d.value)⟩] := by simp
      refine lastUsable_eq_some hmem rfl rfl fun e he hen => ?_
      rcases List.mem_append.mp he with he | he
      · exact absurd hen (hn e he)
      · exact List.mem_singleton.mp he
  rw [hlast, Option.mem_some_iff] at hw
  rw [← hw, String.toList_ofList]
  intro heq
  -- the text between the trimmed ends is shorter than the value
  have hinf := trim_isInfix (dropSemicolons d.value)
  rw [heq] at hinf
  have h₁ := dropEndWhile_isPrefix isBlank (dropEndWhile (· == ';') d.value)
  have h₂ := dropEndWhile_isPrefix (· == ';') d.value
  have hle := hinf.length_le.trans h₁.length_le
  have hsame : dropEndWhile (· == ';') d.value = d.value := h₂.eq_of_length_le hle
  rw [← hsame] at hd
  exact absurd (getLast?_dropEndWhile hd) (by decide)

theorem getD_foldl_ne_of_semicolon {P : Type} {step : Declaration → P → P}
    {get : P → Option String} {standard value : String} {d : Declaration}
    (hf : IsField step name.toList get (some <| String.ofList ·)) (p : P) (hp : get p = none)
    (h : ∀ e ∈ ds ++ [d], IsWritten e) (hnodup : ((ds ++ [d]).map (·.name)).Nodup)
    (hend : d.value.getLast? = some ';') {read : List Declaration}
    (hread : readAll (dropSemicolons (styleText (ds ++ [d]))) = read)
    (hd : d = ⟨name.toList, value.toList⟩) (hv : value ≠ standard) :
    (get (read.foldl (fun p d => step d p) p)).getD standard ≠ value := by
  have hne := ne_of_lastUsable_dropSemicolons h hnodup hend
  rw [hread] at hne
  rw [hf.get_foldl, hp, Option.or_none]
  subst hd
  cases hlast : lastUsable name.toList (some <| String.ofList ·) read with
  | none => exact hv.symm
  | some w =>
    intro hw
    exact hne w hlast (congrArg String.toList hw)

end Fields

end Diagram

namespace NodeStyle

open Diagram
open NumberedLine (dropSemicolons)

theorem filter_nodeDeclared (style : NodeStyle) (name : String) :
    (nodeDeclared style).filter (fun d => d.name = name.toList) =
      (if "fill" = name then
        declared "fill" standard.background String.toList style.background else []) ++
      (if "stroke" = name then
        declared "stroke" standard.borderColor String.toList style.borderColor else []) ++
      (if "color" = name then
        declared "color" standard.textColor String.toList style.textColor else []) ++
      (if "stroke-width" = name then
        declared "stroke-width" standard.borderWidth sizeText style.borderWidth else []) ++
      (if "font-size" = name then
        declared "font-size" standard.fontSize sizeText style.fontSize else []) ++
      (if "font-weight" = name then
        declared "font-weight" standard.fontWeight (·.name.toList) style.fontWeight else []) := by
  simp only [nodeDeclared, List.filter_append, filter_declared]

theorem patched_nodePatch (style : NodeStyle) :
    standard.patched (nodePatch (nodeDeclared style)) = style := by
  have hweight : readWeight? style.fontWeight.name.toList = some style.fontWeight := by
    cases style.fontWeight <;> decide
  have hbackground : (nodePatch (nodeDeclared style)).background.getD standard.background =
      style.background :=
    getD_foldl String.toList NodeStylePatch.isField_background rfl
      ((filter_nodeDeclared style "fill").trans (by simp)) fun _ => by simp
  have hborder : (nodePatch (nodeDeclared style)).borderColor.getD standard.borderColor =
      style.borderColor :=
    getD_foldl String.toList NodeStylePatch.isField_borderColor rfl
      ((filter_nodeDeclared style "stroke").trans (by simp)) fun _ => by simp
  have htext : (nodePatch (nodeDeclared style)).textColor.getD standard.textColor =
      style.textColor :=
    getD_foldl String.toList NodeStylePatch.isField_textColor rfl
      ((filter_nodeDeclared style "color").trans (by simp)) fun _ => by simp
  have hwidth : (nodePatch (nodeDeclared style)).borderWidth.getD standard.borderWidth =
      style.borderWidth :=
    getD_foldl sizeText NodeStylePatch.isField_borderWidth rfl
      ((filter_nodeDeclared style "stroke-width").trans (by simp)) fun _ => readSize?_sizeText _
  have hsize : (nodePatch (nodeDeclared style)).fontSize.getD standard.fontSize =
      style.fontSize :=
    getD_foldl sizeText NodeStylePatch.isField_fontSize rfl
      ((filter_nodeDeclared style "font-size").trans (by simp)) fun _ => readSize?_sizeText _
  have hbold : (nodePatch (nodeDeclared style)).fontWeight.getD standard.fontWeight =
      style.fontWeight :=
    getD_foldl (fun w : FontWeight => w.name.toList) NodeStylePatch.isField_fontWeight rfl
      ((filter_nodeDeclared style "font-weight").trans (by simp)) fun _ => hweight
  unfold patched
  rw [hbackground, hborder, htext, hwidth, hsize, hbold]

theorem nodup_nodeDeclared (style : NodeStyle) : ((nodeDeclared style).map (·.name)).Nodup := by
  have hnames : (["fill", "stroke", "color", "stroke-width", "font-size",
      "font-weight"].map String.toList).Nodup := by decide
  refine hnames.sublist ?_
  simp only [nodeDeclared, List.map_append]
  exact (((((map_name_declared _).append (map_name_declared _)).append
    (map_name_declared _)).append (map_name_declared _)).append
      (map_name_declared _)).append (map_name_declared _)

/-- Where the declarations end in a semicolon, the field declared last gets lost or changed. -/
theorem patched_ne_of_semicolon {style : NodeStyle} (hs : style.IsDeclarable)
    (hend : (nodeStyleText style).getLast? = some ';') :
    standard.patched (nodePatch (readAll (dropSemicolons (nodeStyleText style)))) ≠ style := by
  intro heq
  rw [nodeStyleText_eq] at hend heq
  have hwritten := isWritten_of_mem_nodeDeclared hs
  have hnodup := nodup_nodeDeclared style
  rcases List.eq_nil_or_concat (nodeDeclared style) with hds | ⟨others, d, hds⟩
  · rw [hds] at hend
    cases hend
  rw [List.concat_eq_append] at hds
  have hd : d ∈ nodeDeclared style := by simp [hds]
  rw [hds] at hend heq hwritten hnodup
  rw [getLast?_written (hwritten d (by simp))] at hend
  generalize hread : readAll _ = read at heq
  simp only [nodeDeclared, List.mem_append, mem_declared] at hd
  rcases hd with ((((⟨hv, hd⟩ | ⟨hv, hd⟩) | ⟨hv, hd⟩) | ⟨-, hd⟩) | ⟨-, hd⟩) | ⟨-, hd⟩
  · have hne := getD_foldl_ne_of_semicolon NodeStylePatch.isField_background {} rfl hwritten
      hnodup hend hread hd hv
    exact hne (congrArg background heq)
  · have hne := getD_foldl_ne_of_semicolon NodeStylePatch.isField_borderColor {} rfl hwritten
      hnodup hend hread hd hv
    exact hne (congrArg borderColor heq)
  · have hne := getD_foldl_ne_of_semicolon NodeStylePatch.isField_textColor {} rfl hwritten
      hnodup hend hread hd hv
    exact hne (congrArg textColor heq)
  · simp [hd, sizeText] at hend
  · simp [hd, sizeText] at hend
  · cases hweight : style.fontWeight <;> simp [hd, hweight, FontWeight.name] at hend

end NodeStyle

namespace EdgeStyle

open Diagram
open NumberedLine (dropSemicolons)

theorem filter_edgeDeclared (style : EdgeStyle) (name : String) :
    (edgeDeclared style).filter (fun d => d.name = name.toList) =
      (if "stroke" = name then
        declared "stroke" standard.strokeColor String.toList style.strokeColor else []) ++
      (if "stroke-width" = name then
        declared "stroke-width" standard.strokeWidth sizeText style.strokeWidth else []) ++
      (if "stroke-dasharray" = name then
        declared "stroke-dasharray" standard.dashes (fun s => (s.getD "").toList) style.dashes
        else []) ++
      (if "animated" = name then
        declared "animated" standard.animated flagText style.animated else []) := by
  simp only [edgeDeclared, List.filter_append, filter_declared]

theorem patched_edgePatch (style : EdgeStyle) :
    standard.patched (edgePatch (edgeDeclared style)) = style := by
  have hflag : readFlag (flagText style.animated) = style.animated := by
    cases style.animated <;> decide
  have hcolor : (edgePatch (edgeDeclared style)).strokeColor.getD standard.strokeColor =
      style.strokeColor :=
    getD_foldl String.toList EdgeStylePatch.isField_strokeColor rfl
      ((filter_edgeDeclared style "stroke").trans (by simp)) fun _ => by simp
  have hwidth : (edgePatch (edgeDeclared style)).strokeWidth.getD standard.strokeWidth =
      style.strokeWidth :=
    getD_foldl sizeText EdgeStylePatch.isField_strokeWidth rfl
      ((filter_edgeDeclared style "stroke-width").trans (by simp)) fun _ => readSize?_sizeText _
  have hanimated : (edgePatch (edgeDeclared style)).animated.getD standard.animated =
      style.animated :=
    getD_foldl flagText EdgeStylePatch.isField_animated rfl
      ((filter_edgeDeclared style "animated").trans (by simp)) fun _ => congrArg some hflag
  have hdashes : (edgePatch (edgeDeclared style)).dashes.or standard.dashes = style.dashes := by
    have hds : (edgeDeclared style).filter (fun d => d.name = "stroke-dasharray".toList) =
        declared "stroke-dasharray" standard.dashes (fun s => (s.getD "").toList) style.dashes :=
      (filter_edgeDeclared style "stroke-dasharray").trans (by simp)
    rw [edgePatch, EdgeStylePatch.isField_dashes.get_foldl,
      lastUsable_declared (fun s : Option String => (s.getD "").toList) _ hds]
    cases style.dashes <;> simp [standard]
  unfold patched
  rw [hcolor, hwidth, hdashes, hanimated]

theorem nodup_edgeDeclared (style : EdgeStyle) : ((edgeDeclared style).map (·.name)).Nodup := by
  have hnames : (["stroke", "stroke-width", "stroke-dasharray", "animated"].map
      String.toList).Nodup := by decide
  refine hnames.sublist ?_
  simp only [edgeDeclared, List.map_append]
  exact (((map_name_declared _).append (map_name_declared _)).append
    (map_name_declared _)).append (map_name_declared _)

theorem patched_ne_of_semicolon {style : EdgeStyle} (hs : style.IsDeclarable)
    (hend : (edgeStyleText style).getLast? = some ';') :
    standard.patched (edgePatch (readAll (dropSemicolons (edgeStyleText style)))) ≠ style := by
  intro heq
  rw [edgeStyleText_eq] at hend heq
  have hwritten := isWritten_of_mem_edgeDeclared hs
  have hnodup := nodup_edgeDeclared style
  rcases List.eq_nil_or_concat (edgeDeclared style) with hds | ⟨others, d, hds⟩
  · rw [hds] at hend
    cases hend
  rw [List.concat_eq_append] at hds
  have hd : d ∈ edgeDeclared style := by simp [hds]
  rw [hds] at hend heq hwritten hnodup
  rw [getLast?_written (hwritten d (by simp))] at hend
  generalize hread : readAll _ = read at heq
  simp only [edgeDeclared, List.mem_append, mem_declared] at hd
  rcases hd with ((⟨hv, hd⟩ | ⟨-, hd⟩) | ⟨hv, hd⟩) | ⟨-, hd⟩
  · have hne := getD_foldl_ne_of_semicolon EdgeStylePatch.isField_strokeColor {} rfl hwritten
      hnodup hend hread hd hv
    exact hne (congrArg strokeColor heq)
  · simp [hd, sizeText] at hend
  · obtain ⟨dashes, hdashes⟩ := Option.ne_none_iff_exists'.mp hv
    have hne : dashes ≠ "" := by
      rintro rfl
      exact (hs.dashes "" hdashes).1.ne_nil rfl
    have hdash := congrArg EdgeStyle.dashes heq
    simp only [patched, standard, Option.or_none, hdashes] at hdash
    rw [hdashes] at hd
    have hlost := getD_foldl_ne_of_semicolon EdgeStylePatch.isField_dashes {} rfl hwritten hnodup
      hend hread hd hne
    rw [← edgePatch, hdash, Option.getD_some] at hlost
    exact hlost rfl
  · cases hflag : style.animated <;> simp [hd, hflag, flagText] at hend

end EdgeStyle
end Flowchart
