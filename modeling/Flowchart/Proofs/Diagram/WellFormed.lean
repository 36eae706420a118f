import Flowchart.Proofs.Diagram.Contents
import Flowchart.Proofs.Diagram.Statement
import Flowchart.Proofs.Diagram.StyleText
import Flowchart.Proofs.Grammar.Delimiters

/-! What is read from a text is well formed: identifiers for ids, labels and style texts of one
line, and ends of edges that exist. -/
namespace Flowchart

open Text
open Declaration (IsValue)

section Suffix

variable {s rest : List Char}

theorem Keyword.drop?_suffix {keyword : String} (h : drop? keyword s = some rest) :
    rest <:+ s := by
  unfold drop? at h
  split_ifs at h
  cases h
  exact List.drop_suffix _ s

theorem Keyword.afterBlanks?_suffix (h : afterBlanks? s = some rest) : rest <:+ s := by
  cases s with
  | nil => cases h
  | cons c s =>
    rw [afterBlanks?] at h
    split_ifs at h
    have hd := List.dropWhile_suffix (l := s) isBlank
    split at h
    · cases h
    · cases h
      exact hd.trans (List.suffix_cons c s)

theorem EdgeStyleLine.takePositions?_suffix {budget : Nat} {before : List Char}
    {texts : List PositionText} (h : takePositions? budget before s = some (texts, rest)) :
    rest <:+ s := by
  induction budget generalizing before s texts with
  | zero => cases h
  | succ budget ih =>
    simp only [takePositions?] at h
    have hdigits := List.dropWhile_suffix (l := s) Text.isDigit
    split_ifs at h
    split at h
    · next positions tail hlonger =>
      cases h
      split at hlonger
      · next next hnext =>
        have h₁ := List.dropWhile_suffix (l := s.dropWhile Text.isDigit) isBlank
        rw [hnext] at h₁
        have h₂ := (List.dropWhile_suffix (l := next) isBlank).trans (List.suffix_cons ',' next)
        exact (ih hlonger).trans (h₂.trans (h₁.trans hdigits))
      · cases hlonger
    · obtain ⟨tail, htail, he⟩ := Option.map_eq_some_iff.mp h
      cases he
      exact (Keyword.afterBlanks?_suffix htail).trans hdigits

end Suffix

def AreDeclarable (ds : List Declaration) : Prop :=
  ∀ d ∈ ds, IsValue d.value ∧ OneLine d.value

theorem areDeclarable_readAll {s : List Char} (h : OneLine s) :
    AreDeclarable (Declaration.readAll s) := by
  intro d hd
  obtain ⟨hv, hsub⟩ := Declaration.isValue_of_mem_readAll hd
  exact ⟨hv, h.subset hsub⟩

theorem NodeStyleLine.read?_sound {line : List Char} {style : NodeStyleLine} (hl : OneLine line)
    (h : read? line = some style) :
    Identifier.isIdentifier style.id = true ∧ AreDeclarable style.declarations := by
  simp only [read?, Option.bind_eq_bind, Option.bind_eq_some_iff, Prod.exists,
    Option.some.injEq] at h
  obtain ⟨rest, ⟨word, hword, hrest⟩, id, tail, htake, declarations, hdecl, rfl⟩ := h
  obtain ⟨hid, hs, -⟩ := Identifier.take?_eq_some_iff.mp htake
  refine ⟨hid, areDeclarable_readAll (hl.subset ?_)⟩
  have h₁ := (Keyword.afterBlanks?_suffix hrest).trans (Keyword.drop?_suffix hword)
  have h₂ := Keyword.afterBlanks?_suffix hdecl
  exact (h₂.trans ((List.suffix_append id tail).trans (hs ▸ h₁))).subset

theorem EdgeStyleLine.read?_sound {line : List Char} {style : EdgeStyleLine} (hl : OneLine line)
    (h : read? line = some (.ok style)) : AreDeclarable style.declarations := by
  simp only [read?, Option.bind_eq_bind, Option.bind_eq_some_iff] at h
  obtain ⟨rest, ⟨word, hword, hrest⟩, h⟩ := h
  have hsuffix := (Keyword.afterBlanks?_suffix hrest).trans (Keyword.drop?_suffix hword)
  split at h
  · next declarations hdefault =>
    obtain ⟨tail, htail, hdecl⟩ := Option.bind_eq_some_iff.mp hdefault
    cases h
    have := (Keyword.afterBlanks?_suffix hdecl).trans (Keyword.drop?_suffix htail)
    exact areDeclarable_readAll (hl.subset (this.trans hsuffix).subset)
  · simp only [Option.bind_eq_some_iff, Prod.exists, Option.some.injEq] at h
    obtain ⟨texts, declarations, htake, h⟩ := h
    have := takePositions?_suffix htake
    cases hvalues : PositionText.values texts with
    | error e => simp [hvalues, Except.map] at h
    | ok positions =>
      simp only [hvalues, Except.map, Except.ok.injEq] at h
      subst h
      exact areDeclarable_readAll (hl.subset (this.trans hsuffix).subset)

structure NodeRef.IsWellFormed (ref : NodeRef) : Prop where
  id : Identifier.isIdentifier ref.id = true
  label : ∀ shape label, ref.described = some (shape, label) → label ≠ [] ∧ OneLine label
  keeps : ∀ shape label, ref.described = some (shape, label) → shape.keeps label = true

namespace Statement

/-- Everything that a statement says can stand on a line. -/
structure IsWellFormed (s : Statement) : Prop where
  refs : ∀ ref ∈ s.refs, ref.IsWellFormed
  label : ∀ e, s.edge? = some e → ∀ label ∈ e.2.1.label, label ≠ [] ∧ '|' ∉ label ∧ OneLine label
  node : ∀ ref, s = .node ref → ∀ shape label, ref.described = some (shape, label) →
    ArrowFree label
  nodeStyle : ∀ style, s.nodeStyle? = some style →
    Identifier.isIdentifier style.id = true ∧ AreDeclarable style.declarations
  edgeStyle : ∀ style, s.edgeStyle? = some style → AreDeclarable style.declarations

theorem isWellFormed_ofLine {line : List Char} (h : OneLine line) :
    (ofLine line).IsWellFormed := by
  have href : ∀ s ref, s ⊆ line → NodeRef.read? s = some ref → ref.IsWellFormed := by
    intro s ref hs hread
    obtain ⟨hid, -, hlabel⟩ := NodeRef.read?_sound hread
    refine ⟨hid, fun shape label hd => ?_, fun shape label hd => NodeRef.keeps_of_read? hread hd⟩
    obtain ⟨hne, hsub⟩ := hlabel shape label hd
    exact ⟨hne, h.subset fun c hc => hs (hsub.subset hc)⟩
  have hsays := says_ofLine line
  generalize ofLine line = s at hsays
  cases hsays with
  | structural => constructor <;> simp [refs, edge?, nodeStyle?, edgeStyle?]
  | broken => constructor <;> simp [refs, edge?, nodeStyle?, edgeStyle?]
  | malformedStyle => constructor <;> simp [refs, edge?, nodeStyle?, edgeStyle?]
  | notNodeOrEdge => constructor <;> simp [refs, edge?, nodeStyle?, edgeStyle?]
  | malformedEndpoint => constructor <;> simp [refs, edge?, nodeStyle?, edgeStyle?]
  | nodeStyle hstyle =>
    have hsound := NodeStyleLine.read?_sound h hstyle
    constructor <;> simp [refs, edge?, nodeStyle?, edgeStyle?]
    exact hsound
  | edgeStyle hstyle =>
    have hsound := EdgeStyleLine.read?_sound h hstyle
    constructor <;> simp [refs, edge?, nodeStyle?, edgeStyle?]
    exact hsound
  | @node ref hfree _ _ hread =>
    have hsound := href line ref (List.Subset.refl line) hread
    constructor <;> simp [refs, edge?, nodeStyle?, edgeStyle?]
    · exact hsound
    · intro shape label hd kind htoken
      have hlabel := ((NodeRef.read?_sound hread).2.2 shape label hd).2
      exact ArrowMatch.find?_eq_none_iff.mp hfree kind (htoken.trans hlabel)
  | @edge found source target hfound _ _ hsource htarget =>
    obtain ⟨hlabel, hline⟩ := ArrowMatch.find?_sound hfound
    have hbefore : found.before ⊆ line := by
      rw [hline]
      intro c hc
      simp [hc]
    have hafter : found.after ⊆ line := by
      rw [hline]
      intro c hc
      simp [hc]
    constructor
    · intro ref hr
      simp only [refs, List.mem_cons, List.not_mem_nil, or_false] at hr
      rcases hr with rfl | rfl
      · exact href _ _ hbefore hsource
      · exact href _ _ hafter htarget
    · rintro _ ⟨⟩ label hl
      obtain ⟨hne, hbar⟩ := hlabel label hl
      refine ⟨hne, hbar, h.subset fun c hc => ?_⟩
      have hmem := Arrow.label_subset_toText hl hc
      rw [hline]
      simp [hmem]
    · rintro _ ⟨⟩
    · rintro _ ⟨⟩
    · rintro _ ⟨⟩

end Statement

section Patches

variable {ds : List Declaration}

private theorem isDeclarable_getD {P : Type} {step : Declaration → P → P} {name : List Char}
    {get : P → Option String} (hf : Declaration.IsField step name get (some <| String.ofList ·))
    {p : P} (hp : get p = none) (hds : AreDeclarable ds) {standard value : String}
    (hv : IsDeclarable standard value) :
    IsDeclarable standard ((get (ds.foldl (fun p d => step d p) p)).getD value) := by
  cases hget : get (ds.foldl (fun p d => step d p) p) with
  | none => exact hv
  | some text =>
    obtain ⟨d, hd, htext⟩ := hf.exists_of_get_foldl hp hget
    right
    rw [Option.getD_some, ← htext]
    exact hds d hd

theorem NodeStyle.isDeclarable_standard : NodeStyle.standard.IsDeclarable :=
  ⟨.inl rfl, .inl rfl, .inl rfl⟩

theorem EdgeStyle.isDeclarable_standard : EdgeStyle.standard.IsDeclarable :=
  ⟨.inl rfl, by simp [EdgeStyle.standard]⟩

theorem NodeStyle.IsDeclarable.patched {style : NodeStyle} (h : style.IsDeclarable)
    (hds : AreDeclarable ds) : (style.patched (Declaration.nodePatch ds)).IsDeclarable where
  background := isDeclarable_getD NodeStylePatch.isField_background rfl hds h.background
  borderColor := isDeclarable_getD NodeStylePatch.isField_borderColor rfl hds h.borderColor
  textColor := isDeclarable_getD NodeStylePatch.isField_textColor rfl hds h.textColor

theorem EdgeStyle.IsDeclarable.patched {style : EdgeStyle} (h : style.IsDeclarable)
    (hds : AreDeclarable ds) : (style.patched (Declaration.edgePatch ds)).IsDeclarable where
  strokeColor := isDeclarable_getD EdgeStylePatch.isField_strokeColor rfl hds h.strokeColor
  dashes := by
    intro dashes hd
    rw [EdgeStyle.patched, Option.mem_def, Option.or_eq_some_iff] at hd
    rcases hd with hd | ⟨-, hd⟩
    · obtain ⟨d, hmem, htext⟩ := EdgeStylePatch.isField_dashes.exists_of_get_foldl rfl hd
      rw [← htext]
      exact hds d hmem
    · exact h.dashes dashes hd

end Patches

/-- What every document that is read from a text fulfils. -/
structure Document.IsWellFormed (d : Document) : Prop where
  keyed : Keyed.KeyedBy Node.id d.nodes
  ids : ∀ node ∈ d.nodes.values, Identifier.isIdentifier node.id.toList = true
  labels : ∀ node ∈ d.nodes.values, node.label ≠ "" ∧ OneLine node.label.toList
  keeps : ∀ node ∈ d.nodes.values, node.shape.keeps node.label.toList = true
  nodeStyles : ∀ node ∈ d.nodes.values, node.style.IsDeclarable
  ends : ∀ edge ∈ d.edges, edge.source ∈ d.nodes.keys ∧ edge.target ∈ d.nodes.keys
  edgeLabels : ∀ edge ∈ d.edges, ∀ label ∈ edge.label,
    label ≠ "" ∧ '|' ∉ label.toList ∧ OneLine label.toList
  edgeStyles : ∀ edge ∈ d.edges, edge.style.IsDeclarable
  edgeIds : ∀ i edge, d.edges[i]? = some edge →
    edge.id = Diagram.Draft.edgeId i edge.source edge.target
  /-- Only an edge line holds an arrow besides the label. -/
  lone : ∀ node ∈ d.nodes.values,
    (∀ edge ∈ d.edges, edge.source ≠ node.id ∧ edge.target ≠ node.id) → ArrowFree node.label.toList

namespace Diagram.Draft

theorem eq_of_edgeId_eq {i j : Nat} {source target source' target' : String}
    (h : edgeId i source target = edgeId j source' target') : i = j := by
  have hdigits : ∀ (n : Nat) (s t : String),
      ((edgeId n s t).toList.drop 1).takeWhile Char.isDigit = Nat.toDigits 10 n := by
    intro n s t
    have hpos : ∀ c ∈ Nat.toDigits 10 n, c.isDigit = true :=
      fun c hc => Nat.isDigit_of_mem_toDigits (by omega) (by omega) hc
    have hlist : (edgeId n s t).toList =
        'e' :: (Nat.toDigits 10 n ++ '_' :: (s.toList ++ '_' :: t.toList)) := by
      simp [edgeId, Nat.toString_eq_repr, Nat.toList_repr]
    have hline : Char.isDigit '_' = false := by decide
    simp [hlist, List.takeWhile_append_of_pos hpos, hline]
  have heq : Nat.toDigits 10 i = Nat.toDigits 10 j := by
    rw [← hdigits i source target, h, hdigits]
  have hi := Nat.ofDigitChars_toDigits (n := i) (by omega : 1 < 10) (by omega)
  rw [heq, Nat.ofDigitChars_toDigits (by omega) (by omega)] at hi
  exact hi.symm

structure IsNodeFor (key : String) (node : Node) : Prop where
  id_eq : node.id = key
  id : Identifier.isIdentifier key.toList = true
  label_ne : node.label ≠ ""
  oneLine : OneLine node.label.toList
  keeps : node.shape.keeps node.label.toList = true
  style : node.style.IsDeclarable
  position : node.position = none

theorem isNodeFor_stub {key : String} (h : Identifier.isIdentifier key.toList = true) :
    IsNodeFor key (.stub key) where
  id_eq := rfl
  id := h
  label_ne := by
    rintro rfl
    simp [Identifier.isIdentifier, Identifier.take?] at h
  oneLine := Identifier.oneLine_of_isIdentifier h
  keeps := NodeShape.keeps_rectangle_of_isIdentifier h
  style := NodeStyle.isDeclarable_standard
  position := rfl

theorem IsNodeFor.described {key : String} {node : Node} (h : IsNodeFor key node) {ref : NodeRef}
    (href : ref.IsWellFormed) : IsNodeFor key (Draft.described ref node) := by
  unfold Draft.described describedAs
  cases hd : ref.described with
  | none => exact h
  | some d =>
    obtain ⟨hne, hline⟩ := href.label d.1 d.2 hd
    refine ⟨h.id_eq, h.id, ?_, ?_, ?_, h.style, h.position⟩
    · simpa [← String.toList_inj] using hne
    · simpa using hline
    · simpa using href.keeps d.1 d.2 hd

theorem IsNodeFor.styled {key : String} {node : Node} (h : IsNodeFor key node)
    {style : NodeStyleLine} (hds : AreDeclarable style.declarations) :
    IsNodeFor key (Draft.styled style node) :=
  { h with style := h.style.patched hds }

theorem mem_keys_refer {m : Keyed Node} {ref : NodeRef} {k : String} :
    k ∈ (Draft.refer m ref).keys ↔ k = String.ofList ref.id ∨ k ∈ m.keys := by
  rw [← Keyed.isSome_find?_iff, ← Keyed.isSome_find?_iff, find?_refer]
  split_ifs with h <;> simp [h]

theorem mem_keys_styleNode {m : Keyed Node} {style : NodeStyleLine} {k : String} :
    k ∈ (Draft.styleNode m style).keys ↔ k = String.ofList style.id ∨ k ∈ m.keys := by
  rw [← Keyed.isSome_find?_iff, ← Keyed.isSome_find?_iff, find?_styleNode]
  split_ifs with h <;> simp [h]

theorem mem_keys_foldl_refer {refs : List NodeRef} {m : Keyed Node} {k : String} :
    k ∈ (refs.foldl Draft.refer m).keys ↔ (∃ ref ∈ refs, k = String.ofList ref.id) ∨ k ∈ m.keys := by
  induction refs generalizing m with
  | nil => simp
  | cons ref refs ih =>
    rw [List.foldl_cons, ih, mem_keys_refer]
    simp [or_assoc, or_left_comm]

theorem mem_keys_foldl_styleNode {styles : List NodeStyleLine} {m : Keyed Node} {k : String} :
    k ∈ (styles.foldl Draft.styleNode m).keys ↔
      (∃ style ∈ styles, k = String.ofList style.id) ∨ k ∈ m.keys := by
  induction styles generalizing m with
  | nil => simp
  | cons style styles ih =>
    rw [List.foldl_cons, ih, mem_keys_styleNode]
    simp [or_assoc, or_left_comm]

theorem foldl_styledEdge {styles : List EdgeStyleLine}
    (hstyles : ∀ style ∈ styles, AreDeclarable style.declarations) (edge : Edge)
    (he : edge.style.IsDeclarable) :
    ∃ style : EdgeStyle, style.IsDeclarable ∧
      styles.foldl (fun e s => styledEdge s e) edge = { edge with style := style } := by
  induction styles generalizing edge with
  | nil => exact ⟨edge.style, he, rfl⟩
  | cons s styles ih =>
    have hs := he.patched (hstyles s (by simp))
    obtain ⟨style, hstyle, heq⟩ :=
      ih (fun t ht => hstyles t (List.mem_cons_of_mem _ ht)) (styledEdge s edge) hs
    exact ⟨style, hstyle, heq⟩

end Diagram.Draft

namespace Diagram

open Draft

section Finish

variable {lines : List NumberedLine} {statements : List Statement}
  (hlines : lines.map (fun line => Statement.ofLine line.content) = statements)
  (kind : DiagramKind) (direction : Direction)
include hlines

theorem mem_keys_finish {s : Statement} (hmem : s ∈ statements) {ref : NodeRef}
    (href : ref ∈ s.refs) : String.ofList ref.id ∈
      ((lines.foldl add .empty).finish kind direction).document.nodes.keys := by
  rw [nodes_finish hlines, mem_keys_foldl_styleNode, mem_keys_foldl_refer]
  exact .inr (.inl ⟨ref, List.mem_flatMap.mpr ⟨s, hmem, href⟩, rfl⟩)

variable (hs : ∀ s ∈ statements, s.IsWellFormed)
include hs

theorem isNodeFor_finish {key : String} {node : Node}
    (hn : ((lines.foldl add .empty).finish kind direction).document.nodes.find? key = some node) :
    IsNodeFor key node := by
  rw [nodes_finish hlines] at hn
  refine of_find?_foldl find?_styleNode (fun style hstyle hk => ?_) (fun n hn => ?_) hn
  · obtain ⟨s, hmem, hstyle⟩ := List.mem_filterMap.mp hstyle
    obtain ⟨hid, hds⟩ := (hs s hmem).nodeStyle style hstyle
    subst hk
    exact ⟨isNodeFor_stub (by rwa [String.toList_ofList]), fun node hnode => hnode.styled hds⟩
  · refine of_find?_foldl find?_refer (fun ref href hk => ?_) (by simp) hn
    obtain ⟨s, hmem, href⟩ := List.mem_flatMap.mp href
    have hwell := (hs s hmem).refs ref href
    have hid := hwell.id
    subst hk
    exact ⟨isNodeFor_stub (by rwa [String.toList_ofList]), fun node hnode => hnode.described hwell⟩

omit hs in
theorem exists_edge_finish {s : Statement} (hmem : s ∈ statements) {source target : NodeRef}
    {arrow : Arrow} (he : s.edge? = some (source, arrow, target)) :
    ∃ edge ∈ ((lines.foldl add .empty).finish kind direction).document.edges,
      edge.source = String.ofList source.id ∧ edge.target = String.ofList target.id := by
  have hedges := map_edges_finish (f := fun e : Edge => (e.source, e.target))
    (g := fun e => (String.ofList e.1.id, String.ofList e.2.2.id)) hlines kind direction
    (fun _ _ => rfl) (fun _ _ => rfl)
  have hfound := List.mem_map_of_mem (f := fun e : NodeRef × Arrow × NodeRef =>
    (String.ofList e.1.id, String.ofList e.2.2.id)) (List.mem_filterMap.mpr ⟨s, hmem, he⟩)
  rw [← hedges] at hfound
  obtain ⟨edge, hedge, heq⟩ := List.mem_map.mp hfound
  exact ⟨edge, hedge, (Prod.mk.inj heq).1, (Prod.mk.inj heq).2⟩

theorem arrowFree_finish {key : String} {node : Node}
    (hn : ((lines.foldl add .empty).finish kind direction).document.nodes.find? key = some node)
    (hlone : ∀ edge ∈ ((lines.foldl add .empty).finish kind direction).document.edges,
      edge.source ≠ key ∧ edge.target ≠ key) : ArrowFree node.label.toList := by
  have hstub : ArrowFree (Node.stub key).label.toList :=
    Identifier.arrowFree_of_isIdentifier (isNodeFor_finish hlines kind direction hs hn).id
  rw [nodes_finish hlines] at hn
  refine of_find?_foldl (P := fun node => ArrowFree node.label.toList) find?_styleNode
    (fun _ _ _ => ⟨hstub, fun _ hnode => hnode⟩) (fun n hn => ?_) hn
  refine of_find?_foldl (P := fun node => ArrowFree node.label.toList) find?_refer
    (fun ref href hk => ⟨hstub, fun node hnode => ?_⟩) (by simp) hn
  obtain ⟨s, hmem, href⟩ := List.mem_flatMap.mp href
  cases s with
  | node r =>
    obtain rfl : ref = r := by simpa [Statement.refs] using href
    unfold described describedAs
    cases hd : ref.described with
    | none => exact hnode
    | some d => simpa using (hs _ hmem).node ref rfl d.1 d.2 hd
  | edge source arrow target =>
    obtain ⟨edge, he, hsource, htarget⟩ := exists_edge_finish hlines kind direction hmem rfl
    obtain ⟨hs, ht⟩ := hlone edge he
    simp only [Statement.refs, List.mem_cons, List.not_mem_nil, or_false] at href
    rcases href with rfl | rfl
    · exact absurd (hsource.trans hk) hs
    · exact absurd (htarget.trans hk) ht
  | _ => cases href

theorem exists_newEdge_of_finish {i : Nat} {edge : Edge}
    (hi : ((lines.foldl add .empty).finish kind direction).document.edges[i]? = some edge) :
    ∃ s ∈ statements, ∃ source arrow target style, s.edge? = some (source, arrow, target) ∧
      EdgeStyle.IsDeclarable style ∧
        edge = { newEdge i source arrow target with style := style } := by
  have hstyles : ∀ style ∈ statements.filterMap Statement.edgeStyle?,
      AreDeclarable style.declarations := by
    intro style hstyle
    obtain ⟨s, hmem, hstyle⟩ := List.mem_filterMap.mp hstyle
    exact (hs s hmem).edgeStyle style hstyle
  rw [edges_finish hlines, getElem?_foldl_styleEdges, newEdges, List.getElem?_mapIdx, Option.map_map,
    Option.map_eq_some_iff] at hi
  obtain ⟨⟨source, arrow, target⟩, hfound, rfl⟩ := hi
  obtain ⟨s, hmem, hedge⟩ := List.mem_filterMap.mp (List.mem_of_getElem? hfound)
  obtain ⟨style, hstyle, heq⟩ := foldl_styledEdge
    (fun s hs => hstyles s (List.mem_filter.mp hs).1)
    (newEdge (0 + i) source arrow target) EdgeStyle.isDeclarable_standard
  rw [Nat.zero_add] at heq
  exact ⟨s, hmem, source, arrow, target, style, hedge, hstyle, by simpa using heq⟩

theorem isWellFormed_finish :
    ((lines.foldl add .empty).finish kind direction).document.IsWellFormed := by
  have hnodes : ∀ key node,
      ((lines.foldl add .empty).finish kind direction).document.nodes.find? key = some node →
        IsNodeFor key node := fun key node => isNodeFor_finish hlines kind direction hs
  have hnode : ∀ node ∈ ((lines.foldl add .empty).finish kind direction).document.nodes.values,
      ∃ key, IsNodeFor key node := by
    intro node hn
    obtain ⟨key, hf⟩ := Keyed.mem_values_iff.mp hn
    exact ⟨key, hnodes key node hf⟩
  have hedge : ∀ edge ∈ ((lines.foldl add .empty).finish kind direction).document.edges,
      ∃ s ∈ statements, ∃ i source arrow target style, s.edge? = some (source, arrow, target) ∧
        EdgeStyle.IsDeclarable style ∧
          edge = { newEdge i source arrow target with style := style } := by
    intro edge he
    obtain ⟨i, hi⟩ := List.mem_iff_getElem?.mp he
    obtain ⟨s, hmem, source, arrow, target, style, h⟩ :=
      exists_newEdge_of_finish hlines kind direction hs hi
    exact ⟨s, hmem, i, source, arrow, target, style, h⟩
  constructor
  · exact fun key node hf => (hnodes key node hf).id_eq
  · intro node hn
    obtain ⟨key, hkey⟩ := hnode node hn
    rw [hkey.id_eq]
    exact hkey.id
  · intro node hn
    obtain ⟨key, hkey⟩ := hnode node hn
    exact ⟨hkey.label_ne, hkey.oneLine⟩
  · intro node hn
    obtain ⟨key, hkey⟩ := hnode node hn
    exact hkey.keeps
  · intro node hn
    obtain ⟨key, hkey⟩ := hnode node hn
    exact hkey.style
  · intro edge he
    obtain ⟨s, hmem, i, source, arrow, target, style, hedge, -, rfl⟩ := hedge edge he
    have hrefs : source ∈ s.refs ∧ target ∈ s.refs := by
      cases s <;> cases hedge
      simp [Statement.refs]
    exact ⟨mem_keys_finish hlines kind direction hmem hrefs.1,
      mem_keys_finish hlines kind direction hmem hrefs.2⟩
  · intro edge he label hl
    obtain ⟨s, hmem, i, source, arrow, target, style, hedge, -, rfl⟩ := hedge edge he
    obtain ⟨chars, hchars, rfl⟩ := Option.map_eq_some_iff.mp hl
    obtain ⟨hne, hbar, hline⟩ := (hs s hmem).label _ hedge chars hchars
    rw [String.toList_ofList]
    exact ⟨by simpa [← String.toList_inj] using hne, hbar, hline⟩
  · intro edge he
    obtain ⟨s, -, i, source, arrow, target, style, -, hstyle, rfl⟩ := hedge edge he
    exact hstyle
  · intro i edge hi
    obtain ⟨s, -, source, arrow, target, style, -, -, rfl⟩ :=
      exists_newEdge_of_finish hlines kind direction hs hi
    rfl
  · intro node hn hlone
    obtain ⟨key, hf⟩ := Keyed.mem_values_iff.mp hn
    rw [(hnodes key node hf).id_eq] at hlone
    exact arrowFree_finish hlines kind direction hs hf hlone

end Finish

section Read

variable {text : List Char} {reading : Reading}

theorem exists_statements_of_readChars (h : readChars text = .ok (.ok reading)) :
    ∃ (lines : List NumberedLine) (kind : DiagramKind) (direction : Direction),
      (∀ s ∈ lines.map (fun line => Statement.ofLine line.content), s.IsWellFormed) ∧
      reading = (lines.foldl add .empty).finish kind direction := by
  obtain ⟨lines, kind, direction, -, hlines, rfl⟩ := exists_lines_of_readChars h
  refine ⟨lines, kind, direction, fun s hs => ?_, rfl⟩
  obtain ⟨line, hl, rfl⟩ := List.mem_map.mp hs
  exact Statement.isWellFormed_ofLine (hlines line hl).1

/-- Whatever parses is well formed. -/
theorem isWellFormed_of_readChars (h : readChars text = .ok (.ok reading)) :
    reading.document.IsWellFormed := by
  obtain ⟨lines, kind, direction, hs, rfl⟩ := exists_statements_of_readChars h
  exact isWellFormed_finish rfl kind direction hs

theorem position_of_readChars (h : readChars text = .ok (.ok reading)) {node : Node}
    (hn : node ∈ reading.document.nodes.values) : node.position = none := by
  obtain ⟨lines, kind, direction, hs, rfl⟩ := exists_statements_of_readChars h
  obtain ⟨key, hf⟩ := Keyed.mem_values_iff.mp hn
  exact (isNodeFor_finish rfl kind direction hs hf).position

end Read

end Diagram

end Flowchart
