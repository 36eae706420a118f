import Flowchart.Proofs.Diagram.RoundTrip

/-! Documents that survive their text form: the conditions on ids, labels and style texts under
which nothing but places and edge ids is lost. -/
namespace Flowchart

open Text Diagram

structure IsPlain (text : String) : Prop where
  ne_empty : text ≠ ""
  trimmed : trim text.toList = text.toList
  no_comma : ',' ∉ text.toList
  oneLine : OneLine text.toList
  no_semicolon : text.toList.getLast? ≠ some ';'

structure NodeStyle.IsPlain (style : NodeStyle) : Prop where
  background : style.background ≠ standard.background → Flowchart.IsPlain style.background
  borderColor : style.borderColor ≠ standard.borderColor → Flowchart.IsPlain style.borderColor
  textColor : style.textColor ≠ standard.textColor → Flowchart.IsPlain style.textColor

structure EdgeStyle.IsPlain (style : EdgeStyle) : Prop where
  strokeColor : style.strokeColor ≠ standard.strokeColor → Flowchart.IsPlain style.strokeColor
  dashes : ∀ dashes ∈ style.dashes, Flowchart.IsPlain dashes

/-- Every id is an identifier, every label is kept by its delimiters and free of line breaks and
arrow tokens, every style text is plain and every size whole. The last condition is about size only:
the position of an edge must have no more digits than are read. -/
structure Document.SurvivesText (d : Document) : Prop where
  flow : d.kind.isFlow = true
  keyed : d.KeyedById
  ids : ∀ node ∈ d.nodes.values, Identifier.isIdentifier node.id.toList = true
  labels : ∀ node ∈ d.nodes.values, node.shape.keeps node.label.toList = true ∧
    OneLine node.label.toList ∧ ArrowFree node.label.toList
  edgeLabels : ∀ edge ∈ d.edges, ∀ label ∈ edge.label,
    label ≠ "" ∧ '|' ∉ label.toList ∧ OneLine label.toList ∧ ArrowFree label.toList
  nodeStyles : ∀ node ∈ d.nodes.values, node.style.IsPlain ∧ node.style.IsWhole
  edgeStyles : ∀ edge ∈ d.edges, edge.style.IsPlain ∧ edge.style.IsWhole
  positions : d.edges.length ≤ 10 ^ OversizedNumeral.limit

section Decidable

instance (text : String) : Decidable (IsPlain text) :=
  decidable_of_iff (text ≠ "" ∧ trim text.toList = text.toList ∧ ',' ∉ text.toList ∧
      OneLine text.toList ∧ text.toList.getLast? ≠ some ';')
    ⟨fun ⟨h₁, h₂, h₃, h₄, h₅⟩ => ⟨h₁, h₂, h₃, h₄, h₅⟩,
      fun ⟨h₁, h₂, h₃, h₄, h₅⟩ => ⟨h₁, h₂, h₃, h₄, h₅⟩⟩

instance (style : NodeStyle) : Decidable style.IsPlain :=
  decidable_of_iff (_ ∧ _ ∧ _) ⟨fun ⟨h₁, h₂, h₃⟩ => ⟨h₁, h₂, h₃⟩, fun ⟨h₁, h₂, h₃⟩ => ⟨h₁, h₂, h₃⟩⟩

instance (style : EdgeStyle) : Decidable style.IsPlain :=
  decidable_of_iff (_ ∧ _) ⟨fun ⟨h₁, h₂⟩ => ⟨h₁, h₂⟩, fun ⟨h₁, h₂⟩ => ⟨h₁, h₂⟩⟩

end Decidable

section Plain

theorem IsPlain.isDeclarable {text : String} (h : IsPlain text) :
    Declaration.IsValue text.toList ∧ OneLine text.toList :=
  ⟨⟨by simpa using h.ne_empty, h.trimmed, h.no_comma⟩, h.oneLine⟩

theorem NodeStyle.IsPlain.isDeclarable {style : NodeStyle} (h : style.IsPlain) :
    style.IsDeclarable where
  background := or_iff_not_imp_left.mpr fun hne => (h.background hne).isDeclarable
  borderColor := or_iff_not_imp_left.mpr fun hne => (h.borderColor hne).isDeclarable
  textColor := or_iff_not_imp_left.mpr fun hne => (h.textColor hne).isDeclarable

theorem EdgeStyle.IsPlain.isDeclarable {style : EdgeStyle} (h : style.IsPlain) :
    style.IsDeclarable where
  strokeColor := or_iff_not_imp_left.mpr fun hne => (h.strokeColor hne).isDeclarable
  dashes := fun dashes hd => (h.dashes dashes hd).isDeclarable

theorem NodeStyle.IsPlain.readNodeStyle {style : NodeStyle} (h : style.IsPlain) :
    readNodeStyle style = style := by
  rw [readNodeStyle_eq_iff h.isDeclarable, nodeStyleText_eq]
  intro hend
  obtain ⟨d, hd, hlast⟩ :=
    exists_of_getLast?_written (isWritten_of_mem_nodeDeclared h.isDeclarable) hend
  simp only [nodeDeclared, List.mem_append, mem_declared] at hd
  rcases hd with ((((⟨hv, rfl⟩ | ⟨hv, rfl⟩) | ⟨hv, rfl⟩) | ⟨-, rfl⟩) | ⟨-, rfl⟩) | ⟨-, rfl⟩
  · exact (h.background hv).no_semicolon hlast
  · exact (h.borderColor hv).no_semicolon hlast
  · exact (h.textColor hv).no_semicolon hlast
  · simp [sizeText] at hlast
  · simp [sizeText] at hlast
  · cases hweight : style.fontWeight <;> simp [hweight, FontWeight.name] at hlast

theorem EdgeStyle.IsPlain.readEdgeStyle {style : EdgeStyle} (h : style.IsPlain) :
    readEdgeStyle style = style := by
  rw [readEdgeStyle_eq_iff h.isDeclarable, edgeStyleText_eq]
  intro hend
  obtain ⟨d, hd, hlast⟩ :=
    exists_of_getLast?_written (isWritten_of_mem_edgeDeclared h.isDeclarable) hend
  simp only [edgeDeclared, List.mem_append, mem_declared] at hd
  rcases hd with ((⟨hv, rfl⟩ | ⟨-, rfl⟩) | ⟨hv, rfl⟩) | ⟨-, rfl⟩
  · exact (h.strokeColor hv).no_semicolon hlast
  · simp [sizeText] at hlast
  · obtain ⟨dashes, hdashes⟩ := Option.ne_none_iff_exists'.mp hv
    simp only [hdashes, Option.getD_some] at hlast
    exact (h.dashes dashes hdashes).no_semicolon hlast
  · cases hflag : style.animated <;> simp [hflag, flagText] at hlast

end Plain

namespace Document.SurvivesText

variable {d : Document} (h : d.SurvivesText)
include h

theorem isLegible : d.IsLegible where
  flow := h.flow
  keyed := h.keyed
  nodes := fun node hn =>
    ⟨⟨h.ids node hn, (h.labels node hn).1, (h.labels node hn).2.1⟩, (h.labels node hn).2.2⟩
  edges := fun edge he label hl =>
    ⟨(h.edgeLabels edge he label hl).2.2.1, (h.edgeLabels edge he label hl).2.1⟩
  nodeStyles := fun node hn => ⟨(h.nodeStyles node hn).1.isDeclarable, (h.nodeStyles node hn).2⟩
  edgeStyles := fun edge he => ⟨(h.edgeStyles edge he).1.isDeclarable, (h.edgeStyles edge he).2⟩
  size := h.positions

theorem arrowStands {link : Link} (hl : link ∈ links d) : link.ArrowStands := by
  intro label hlabel kind _ hend
  have hfree := (h.edgeLabels _ (mem_links_iff.mp hl).1 label hlabel).2.2.2
  exact absurd hend.isInfix (hfree kind)

theorem shownLabel_eq {edge : Edge} (he : edge ∈ d.edges) : shownLabel edge = edge.label := by
  cases hl : edge.label with
  | none => simp [shownLabel, hl]
  | some label => exact shownLabel_eq_some.mpr ⟨hl, (h.edgeLabels edge he label hl).1⟩

/-- Reading the text of a document gives the same nodes and, in the same order, the same edges, but
for those without an end. -/
theorem readArranged_write :
    ∃ reading, readArranged (write d) = .ok (.ok reading) ∧ reading.issues = [] ∧
      reading.document.kind = d.kind ∧ reading.document.direction = d.direction ∧
      (∀ id, (reading.document.node? id).map Node.unplaced = (d.node? id).map Node.unplaced) ∧
      reading.document.edges.map Edge.unnamed =
        (d.edges.filter fun e => (d.node? e.source).isSome && (d.node? e.target).isSome).map
          Edge.unnamed := by
  have hnodeStyles : ∀ node ∈ d.nodes.values, readNodeStyle node.style = node.style :=
    fun node hn => (h.nodeStyles node hn).1.readNodeStyle
  have hedgeStyles : ∀ edge ∈ d.edges, readEdgeStyle edge.style = edge.style :=
    fun edge he => (h.edgeStyles edge he).1.readEdgeStyle
  obtain ⟨reading, hread, hissues, hkind, hdirection, hnodes, hedges⟩ :=
    readArranged_written h.isLegible (fun _ => h.arrowStands) hnodeStyles hedgeStyles
  refine ⟨reading, hread, hissues, hkind, hdirection, hnodes, ?_⟩
  rw [hedges, ← map_edge_links, List.map_map]
  apply List.map_congr_left
  intro link hl
  have hlabel := h.shownLabel_eq (mem_links_iff.mp hl).1
  simp [Edge.shown, Edge.unnamed, hlabel]

end Document.SurvivesText

/-- Keywords for ids, a bar in a label, a loop, an edge without target, and styles. -/
def keywordDocument : Document where
  kind := .graph
  direction := .leftRight
  nodes := .ofValues Node.id
    [⟨"end", "a | b", .rounded, .standard, none⟩,
     ⟨"style", "say \"hi\"", .hexagon, { NodeStyle.standard with background := "#fff" }, none⟩,
     ⟨"class", "class", .rectangle, { NodeStyle.standard with fontSize := 20 }, none⟩]
  edges :=
    [⟨"first", "end", "gone", none, .plain, .standard⟩,
     ⟨"second", "end", "style", some "yes; no", .thick,
      { EdgeStyle.standard with dashes := some "5 5" }⟩,
     ⟨"third", "style", "style", none, .dotted, { EdgeStyle.standard with strokeWidth := 4 }⟩]

theorem survivesText_keywordDocument : keywordDocument.SurvivesText where
  flow := by decide
  keyed := by decide +kernel
  ids := by decide +kernel
  labels := by decide +kernel
  edgeLabels := by decide +kernel
  nodeStyles := by decide +kernel
  edgeStyles := by decide +kernel
  positions := by decide +kernel

theorem readArranged_write_keywordDocument : keywordDocument.SurvivesText ∧
    ∃ reading, readArranged (write keywordDocument) = .ok (.ok reading) ∧ reading.issues = [] ∧
      reading.document.edges.length = 2 := by
  obtain ⟨reading, hread, hissues, -, -, -, hedges⟩ :=
    survivesText_keywordDocument.readArranged_write
  refine ⟨survivesText_keywordDocument, reading, hread, hissues, ?_⟩
  have hlength := congrArg List.length hedges
  rw [List.length_map, List.length_map] at hlength
  rw [hlength]
  decide +kernel

end Flowchart
