import Flowchart.Proofs.Diagram.WrittenLines

/-! The text of a document is read as one statement for each link, each node that no link mentions
and each style that is not the standard one. -/
namespace Flowchart

open Text Diagram
open NumberedLine (contentOf? dropSemicolons dropSemicolons_eq_self)

/-- The nodes that no link mentions have a line of their own, and each of the others has a place on a
line with an arrow. -/
structure Document.IsWritable (d : Document) : Prop where
  flow : d.kind.isFlow = true
  keyed : d.KeyedById
  nodes : ∀ node ∈ d.nodes.values, node.IsWritable
  lone : ∀ node ∈ Diagram.loneNodes d, ArrowFree node.label.toList
  edges : ∀ edge ∈ d.edges, edge.IsLegible
  nodeStyles : ∀ node ∈ d.nodes.values, node.style.IsDeclarable
  edgeStyles : ∀ edge ∈ d.edges, edge.style.IsDeclarable
  size : d.edges.length ≤ 10 ^ OversizedNumeral.limit

/-- Ids, labels and style values of the document all fit on a line, sizes are whole numbers, and the
positions of the edges have no more digits than are read. -/
structure Document.IsLegible (d : Document) : Prop where
  flow : d.kind.isFlow = true
  keyed : d.KeyedById
  nodes : ∀ node ∈ d.nodes.values, node.IsLegible
  edges : ∀ edge ∈ d.edges, edge.IsLegible
  nodeStyles : ∀ node ∈ d.nodes.values, node.style.IsDeclarable ∧ node.style.IsWhole
  edgeStyles : ∀ edge ∈ d.edges, edge.style.IsDeclarable ∧ edge.style.IsWhole
  size : d.edges.length ≤ 10 ^ OversizedNumeral.limit

namespace Diagram

variable {d : Document}

section Links

instance (d : Document) : Decidable d.KeyedById :=
  inferInstanceAs (Decidable (∀ entry ∈ d.nodes.entries, entry.1 = entry.2.id))

theorem mem_values_of_node? {id : String} {node : Node} (h : d.node? id = some node) :
    node ∈ d.nodes.values :=
  Keyed.mem_values_iff.mpr ⟨id, h⟩

theorem node?_eq_some_iff (hk : d.KeyedById) {id : String} {node : Node} :
    d.node? id = some node ↔ node ∈ d.nodes.values ∧ node.id = id := by
  have hkeyed := Keyed.keyedBy_iff.mpr hk
  constructor
  · intro h
    exact ⟨mem_values_of_node? h, hkeyed id node h⟩
  · rintro ⟨h, rfl⟩
    obtain ⟨key, hf⟩ := Keyed.mem_values_iff.mp h
    rwa [hkeyed key node hf]

theorem mem_links_iff {link : Link} : link ∈ links d ↔
    link.edge ∈ d.edges ∧ d.node? link.edge.source = some link.source ∧
      d.node? link.edge.target = some link.target := by
  simp only [links, List.mem_filterMap, Option.bind_eq_bind, Option.bind_eq_some_iff,
    Option.some.injEq]
  constructor
  · rintro ⟨edge, he, source, hs, target, ht, rfl⟩
    exact ⟨he, hs, ht⟩
  · rintro ⟨he, hs, ht⟩
    exact ⟨link.edge, he, link.source, hs, link.target, ht, rfl⟩

theorem length_links_le : (links d).length ≤ d.edges.length :=
  List.length_filterMap_le _ _

theorem map_edge_links (d : Document) : (links d).map Link.edge =
    d.edges.filter fun e => (d.node? e.source).isSome && (d.node? e.target).isSome := by
  rw [links, List.map_filterMap, ← List.filterMap_eq_filter]
  refine List.filterMap_congr fun edge _ => ?_
  cases hs : d.node? edge.source <;> cases ht : d.node? edge.target <;>
    simp [Option.guard, hs, ht]

theorem map_edge_links_eq (hends : ∀ edge ∈ d.edges,
    edge.source ∈ d.nodes.keys ∧ edge.target ∈ d.nodes.keys) :
    (links d).map Link.edge = d.edges := by
  rw [map_edge_links, List.filter_eq_self]
  intro edge he
  obtain ⟨hs, ht⟩ := hends edge he
  rw [Bool.and_eq_true]
  exact ⟨Keyed.isSome_find?_iff.mpr hs, Keyed.isSome_find?_iff.mpr ht⟩

end Links

section Header

private theorem header_facts : ∀ kind ∈ [DiagramKind.flowchart, .graph],
    ∀ direction ∈ Direction.all,
      contentOf? (kind.name.toList ++ ' ' :: direction.name.toList) =
          some (kind.name.toList ++ ' ' :: direction.name.toList) ∧
        OneLine (kind.name.toList ++ ' ' :: direction.name.toList) ∧
        Header.kind? (kind.name.toList ++ ' ' :: direction.name.toList) = some kind ∧
        Header.direction (kind.name.toList ++ ' ' :: direction.name.toList) = direction := by
  decide +kernel

theorem headerText_facts (h : d.kind.isFlow = true) :
    contentOf? (headerText d) = some (headerText d) ∧ OneLine (headerText d) ∧
      Header.kind? (headerText d) = some d.kind ∧ Header.direction (headerText d) = d.direction := by
  have hkind : d.kind ∈ [DiagramKind.flowchart, .graph] := by
    simpa [DiagramKind.isFlow] using h
  have hdirection : d.direction ∈ Direction.all := by
    cases d.direction <;> decide
  exact header_facts d.kind hkind d.direction hdirection

end Header

def writtenContents (d : Document) : List (List Char) :=
  (links d).map linkContent ++ (loneNodes d).map nodeText ++
    (d.nodes.values.filterMap nodeStyleContent? ++
      (links d).zipIdx.filterMap fun (link, position) => edgeStyleContent? position link)

def styleStatements (d : Document) : List Statement :=
  d.nodes.values.filterMap nodeStyleStatement? ++
    (links d).zipIdx.filterMap fun entry => edgeStyleStatement? entry.2 entry.1

def writtenStatements (d : Document) : List Statement :=
  ((links d).map fun link => Statement.ofLine (linkContent link)) ++
    (loneNodes d).map (fun node => .node (refOf node)) ++ styleStatements d

theorem mem_styleStatements {s : Statement} (hs : s ∈ styleStatements d) :
    (∃ style, s = .nodeStyle style) ∨
      ∃ position < (links d).length, ∃ ds, s = .edgeStyle ⟨some [position], ds⟩ := by
  rcases List.mem_append.mp hs with hs | hs
  · obtain ⟨node, -, hs⟩ := List.mem_filterMap.mp hs
    unfold nodeStyleStatement? at hs
    split at hs <;> cases hs
    exact .inl ⟨_, rfl⟩
  · obtain ⟨entry, he, hs⟩ := List.mem_filterMap.mp hs
    have hlt := (List.getElem?_eq_some_iff.mp (List.mem_zipIdx_iff_getElem?.mp he)).1
    unfold edgeStyleStatement? at hs
    split at hs <;> cases hs
    exact .inr ⟨entry.2, hlt, _, rfl⟩

theorem exists_gap (d : Document) : ∃ gap : List (List Char),
    textLines d = headerText d :: ((links d).map linkText ++
      (loneNodes d).map (indent ++ nodeText ·)) ++ gap ++ styleLines d ∧
        (∀ l ∈ gap, l = []) ∧ (styleLines d = [] → gap = []) := by
  unfold textLines
  cases styleLines d with
  | nil => exact ⟨[], by simp, by simp, fun _ => rfl⟩
  | cons s ss => exact ⟨[[]], by simp, by simp, by simp⟩

theorem getLast?_textLines (d : Document) : (textLines d).getLast? ≠ some [] := by
  obtain ⟨gap, hlines, -, hgap⟩ := exists_gap d
  have hindent : indent ≠ [] := by decide
  have hstyle : ∀ l ∈ styleLines d, l ≠ [] := by
    intro l hl
    simp only [styleLines, List.mem_append, List.mem_filterMap, Prod.exists] at hl
    rcases hl with ⟨node, -, hl⟩ | ⟨link, position, -, hl⟩
    · unfold nodeStyleLine? at hl
      split at hl <;> cases hl
      simp [hindent]
    · unfold edgeStyleLine? at hl
      split at hl <;> cases hl
      simp [hindent]
  have hfront : ∀ l ∈ headerText d :: ((links d).map linkText ++
      (loneNodes d).map (indent ++ nodeText ·)), l ≠ [] := by
    intro l hl
    simp only [List.mem_cons, List.mem_append, List.mem_map] at hl
    rcases hl with rfl | ⟨link, -, rfl⟩ | ⟨node, -, rfl⟩
    · simp [headerText]
    · simp [linkText]
    · simp [hindent]
  intro hlast
  by_cases hs : styleLines d = []
  · rw [hlines, hs, hgap hs, List.append_nil, List.append_nil] at hlast
    exact hfront _ (List.mem_of_getLast? hlast) rfl
  · rw [hlines, List.getLast?_append_of_ne_nil _ hs] at hlast
    exact hstyle _ (List.mem_of_getLast? hlast) rfl

theorem ne_nil_of_mem_writtenContents (d : Document) :
    ∀ content ∈ writtenContents d, content ≠ [] := by
  intro content hc
  simp only [writtenContents, List.mem_append, List.mem_map, List.mem_filterMap, Prod.exists] at hc
  rcases hc with (⟨link, -, rfl⟩ | ⟨node, hn, rfl⟩) | ⟨node, -, hc⟩ | ⟨link, position, -, hc⟩
  · simp [linkContent]
  · simp [nodeText, NodeShape.wrap_ne_nil]
  · unfold nodeStyleContent? at hc
    split at hc <;> cases hc
    simp
  · unfold edgeStyleContent? at hc
    split at hc <;> cases hc
    simp

section Writable

variable (h : d.IsWritable)
include h

theorem isWritable_ends {link : Link} (hl : link ∈ links d) :
    link.source.IsWritable ∧ link.target.IsWritable := by
  obtain ⟨-, hs, ht⟩ := mem_links_iff.mp hl
  exact ⟨h.nodes _ (mem_values_of_node? hs), h.nodes _ (mem_values_of_node? ht)⟩

theorem isLegible_lone {node : Node} (hn : node ∈ loneNodes d) : node.IsLegible :=
  ⟨h.nodes _ (List.mem_filter.mp hn).1, h.lone _ hn⟩

theorem lt_of_mem_zipIdx {link : Link} {position : Nat}
    (hl : (link, position) ∈ (links d).zipIdx) :
    link ∈ links d ∧ position < 10 ^ OversizedNumeral.limit := by
  have hget := List.mem_zipIdx_iff_getElem?.mp hl
  have hlt := (List.getElem?_eq_some_iff.mp hget).1
  exact ⟨List.mem_of_getElem? hget, hlt.trans_le (length_links_le.trans h.size)⟩

theorem map_ofLine_writtenContents :
    (writtenContents d).map Statement.ofLine = writtenStatements d := by
  have hlone : (loneNodes d).map (Statement.ofLine ∘ nodeText) =
      (loneNodes d).map fun node => .node (refOf node) :=
    List.map_congr_left fun node hn => ofLine_nodeText (isLegible_lone h hn)
  have hnodes : d.nodes.values.filterMap (fun node =>
      (nodeStyleContent? node).map Statement.ofLine) =
        d.nodes.values.filterMap nodeStyleStatement? := by
    refine List.filterMap_congr fun node hn => ?_
    exact ofLine_nodeStyleContent? (h.nodes _ hn).id (h.nodeStyles _ hn)
  have hedges : (links d).zipIdx.filterMap (fun entry =>
      (edgeStyleContent? entry.2 entry.1).map Statement.ofLine) =
        (links d).zipIdx.filterMap fun entry => edgeStyleStatement? entry.2 entry.1 := by
    refine List.filterMap_congr fun entry he => ?_
    obtain ⟨hl, hp⟩ := lt_of_mem_zipIdx h he
    exact ofLine_edgeStyleContent? hp (h.edgeStyles _ (mem_links_iff.mp hl).1)
  rw [writtenContents, writtenStatements, styleStatements, List.map_append, List.map_append,
    List.map_append,
    List.map_map, List.map_map, List.map_filterMap, List.map_filterMap, hlone, hnodes]
  exact congrArg _ (congrArg _ hedges)

theorem filterMap_contentOf?_textLines :
    (textLines d).filterMap contentOf? = headerText d :: writtenContents d := by
  have hlinks : ((links d).map linkText).filterMap contentOf? = (links d).map linkContent := by
    rw [List.filterMap_map, ← List.filterMap_eq_map]
    exact List.filterMap_congr fun link hl => contentOf?_linkText (isWritable_ends h hl).1
  have hlone : ((loneNodes d).map (indent ++ nodeText ·)).filterMap contentOf? =
      (loneNodes d).map nodeText := by
    rw [List.filterMap_map, ← List.filterMap_eq_map]
    exact List.filterMap_congr fun node hn => contentOf?_nodeText (isLegible_lone h hn).toIsWritable
  have hstyles : (styleLines d).filterMap contentOf? =
      d.nodes.values.filterMap nodeStyleContent? ++
        (links d).zipIdx.filterMap fun (link, position) => edgeStyleContent? position link := by
    rw [styleLines, List.filterMap_append, List.filterMap_filterMap, List.filterMap_filterMap]
    congr 1
    · refine List.filterMap_congr fun node hn => ?_
      exact contentOf?_nodeStyleLine? (h.nodeStyles _ hn)
    · refine List.filterMap_congr fun entry he => ?_
      have hstyle := h.edgeStyles _ (mem_links_iff.mp (lt_of_mem_zipIdx h he).1).1
      exact contentOf?_edgeStyleLine? entry.2 hstyle
  obtain ⟨gap, hlines, hempty, -⟩ := exists_gap d
  have hgap : gap.filterMap contentOf? = [] := by
    rw [List.filterMap_eq_nil_iff]
    intro l hl
    rw [hempty l hl]
    rfl
  rw [hlines, List.filterMap_append, List.filterMap_append, hgap, hstyles, List.filterMap_cons,
    (headerText_facts h.flow).1, List.filterMap_append, hlinks, hlone, writtenContents]
  simp

theorem oneLine_of_mem_textLines : ∀ l ∈ textLines d, OneLine l := by
  have hindent : OneLine indent := by decide
  have hspace : isLineBreak ' ' = false := by decide
  obtain ⟨gap, hlines, hempty, -⟩ := exists_gap d
  rw [hlines]
  intro l hl
  simp only [List.cons_append, List.mem_cons, List.mem_append, List.mem_map, styleLines,
    List.mem_filterMap, Prod.exists] at hl
  rcases hl with rfl | ((⟨link, hlink, rfl⟩ | ⟨node, hn, rfl⟩) | hl) | ⟨node, hn, hl⟩ |
    ⟨link, position, he, hl⟩
  · exact (headerText_facts h.flow).2.1
  · have hends := isWritable_ends h hlink
    have harrow : OneLine (arrowOf link.edge).toText := by
      have htoken : OneLine link.edge.arrow.token := by cases link.edge.arrow <;> decide
      have hbar : isLineBreak '|' = false := by decide
      rw [toText_arrowOf]
      cases hs : shownLabel link.edge with
      | none => exact htoken
      | some label =>
        have hlabel := (h.edges _ (mem_links_iff.mp hlink).1 label (shownLabel_eq_some.mp hs).1).1
        simp [htoken, hbar, hlabel]
    simp [linkText, hindent, hspace, harrow, oneLine_nodeText hends.1, oneLine_nodeText hends.2]
  · simp [hindent, oneLine_nodeText (isLegible_lone h hn).toIsWritable]
  · rw [hempty l hl]
    exact oneLine_nil
  · have hid := Identifier.oneLine_of_isIdentifier (h.nodes node hn).id
    have htext := oneLine_nodeStyleText (h.nodeStyles node hn)
    have hword : OneLine "style ".toList := by decide
    unfold nodeStyleLine? at hl
    split at hl
    · cases hl
    · cases hl
      simp only [oneLine_append, oneLine_cons]
      exact ⟨⟨⟨hindent, hword⟩, hid⟩, hspace, htext⟩
  · have hstyle := h.edgeStyles _ (mem_links_iff.mp (lt_of_mem_zipIdx h he).1).1
    have htext := oneLine_edgeStyleText hstyle
    have hword : OneLine "linkStyle ".toList := by decide
    have hdigits : OneLine (Nat.toDigits 10 position) := oneLine_of_not_isBlank fun c hc =>
      isBlank_of_isDigit (Nat.isDigit_of_mem_toDigits (by omega) (by omega) hc)
    unfold edgeStyleLine? at hl
    split at hl
    · cases hl
    · cases hl
      simp only [oneLine_append, oneLine_cons]
      exact ⟨⟨⟨hindent, hword⟩, hdigits⟩, hspace, htext⟩

/-- What the text of a document says, line by line. -/
theorem contents_writeChars :
    (lines (writeChars d)).filterMap contentOf? = headerText d :: writtenContents d := by
  rw [writeChars, lines_joinWith (oneLine_of_mem_textLines h) (getLast?_textLines d),
    filterMap_contentOf?_textLines h]

theorem error?_of_mem_writtenStatements : ∀ s ∈ writtenStatements d, s.error? = none := by
  intro s hs
  simp only [writtenStatements, List.mem_append, List.mem_map] at hs
  rcases hs with (⟨link, hl, rfl⟩ | ⟨node, -, rfl⟩) | hs
  · obtain ⟨found, hfound⟩ := exists_find?_linkContent link
    rw [ofLine_of_find? (isWritable_ends h hl).1 hfound]
    exact (ofArrow_cases found).1
  · rfl
  · rcases mem_styleStatements hs with ⟨style, rfl⟩ | ⟨position, -, ds, rfl⟩ <;> rfl

/-- The text of a document is read as its statements add up. -/
theorem readChars_writeChars : ∃ lines : List NumberedLine,
    lines.map (fun line => Statement.ofLine line.content) = writtenStatements d ∧
      readChars (writeChars d) =
        .ok (.ok ((lines.foldl Draft.add .empty).finish d.kind d.direction)) := by
  have herr : ∀ content ∈ writtenContents d, (Statement.ofLine content).error? = none := by
    intro content hc
    apply error?_of_mem_writtenStatements h
    rw [← map_ofLine_writtenContents h]
    exact List.mem_map_of_mem hc
  obtain ⟨-, -, hkind, hdirection⟩ := headerText_facts h.flow
  obtain ⟨lines, hlines, hread⟩ := readChars_of_contents (contents_writeChars h) hkind h.flow
    (ne_nil_of_mem_writtenContents d) herr
  refine ⟨lines, ?_, by rw [hread, hdirection]⟩
  rw [← map_ofLine_writtenContents h, ← hlines, List.map_map]
  rfl

end Writable

end Diagram

namespace Document.IsLegible

variable {d : Document} (h : d.IsLegible)
include h

theorem isWritable : d.IsWritable where
  flow := h.flow
  keyed := h.keyed
  nodes := fun node hn => (h.nodes node hn).toIsWritable
  lone := fun node hn => (h.nodes node (List.mem_filter.mp hn).1).arrowFree
  edges := h.edges
  nodeStyles := fun node hn => (h.nodeStyles node hn).1
  edgeStyles := fun edge he => (h.edgeStyles edge he).1
  size := h.size

theorem isCut {link : Link} (hl : link ∈ links d) (ha : link.ArrowStands) :
    link.IsCut := by
  obtain ⟨he, hs, ht⟩ := mem_links_iff.mp hl
  exact isCut_of_arrowStands (h.nodes _ (mem_values_of_node? hs)) (h.nodes _ (mem_values_of_node? ht))
    (h.edges _ he) ha

end Document.IsLegible
end Flowchart
