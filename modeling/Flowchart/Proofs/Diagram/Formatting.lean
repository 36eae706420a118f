import Flowchart.Proofs.Diagram.Parsed

/-! Formatting: a text is read and what was read is written. The search for an arrow goes through a
line kind by kind, so an arrow in a label can win over the one that is written between the ends. -/
namespace Flowchart

open Text Diagram

def Edge.bare (edge : Edge) : Edge :=
  { edge with id := "", style := .standard }

namespace Diagram

def bareEdge (e : NodeRef × Arrow × NodeRef) : Edge :=
  (Draft.newEdge 0 e.1 e.2.1 e.2.2).bare

/-- The line of the link is read as an edge between the same ends, with its own arrow and label. -/
def Link.KeepsEdge (link : Link) : Prop :=
  (Statement.ofLine (linkContent link)).edge?.map bareEdge = some link.edge.bare

instance (link : Link) : Decidable link.KeepsEdge :=
  inferInstanceAs (Decidable (_ = _))

end Diagram

namespace Document

variable {d : Document} {node : Node}

def writtenRefs (d : Document) (id : String) : List NodeRef :=
  ((writtenStatements d).flatMap Statement.refs).filter (String.ofList ·.id = id)

/-- The last description of the node in the text is the one that is written for it. -/
def KeepsNode (d : Document) (node : Node) : Prop :=
  Draft.describedAs (Draft.lastDescription (d.writtenRefs node.id)) (.stub node.id) = bareNode node

/-- The text of the document is read without a report as a diagram of the same kind and direction,
with the same nodes but for styles and places and the same edges but for ids and styles. -/
def IsReadBack (d : Document) : Prop :=
  ∃ again, readArranged (write d) = .ok (.ok again) ∧ again.issues = [] ∧
    again.document.kind = d.kind ∧ again.document.direction = d.direction ∧
    (∀ id, (again.document.node? id).map bareNode = (d.node? id).map bareNode) ∧
    again.document.edges.map Edge.bare = d.edges.map Edge.bare

section Written

theorem IsWellFormed.map_edge_links (h : d.IsWellFormed) : (links d).map Link.edge = d.edges :=
  map_edge_links_eq h.ends

theorem IsWellFormed.keyedById (h : d.IsWellFormed) : d.KeyedById :=
  Keyed.keyedBy_iff.mp h.keyed

theorem IsWellFormed.shownLabel_eq (h : d.IsWellFormed) {edge : Edge} (he : edge ∈ d.edges) :
    shownLabel edge = edge.label := by
  cases hl : edge.label with
  | none => simp [shownLabel, hl]
  | some label => exact shownLabel_eq_some.mpr ⟨hl, (h.edgeLabels edge he label hl).1⟩

theorem IsWellFormed.isWritable (h : d.IsWellFormed) (hflow : d.kind.isFlow = true)
    (hsize : d.edges.length ≤ 10 ^ OversizedNumeral.limit) : d.IsWritable where
  flow := hflow
  keyed := h.keyedById
  nodes := fun node hn => ⟨h.ids node hn, h.keeps node hn, (h.labels node hn).2⟩
  lone := by
    intro node hn
    obtain ⟨hmem, hlone⟩ := List.mem_filter.mp hn
    refine h.lone node hmem fun edge he => ?_
    rw [← h.map_edge_links] at he
    obtain ⟨link, hl, rfl⟩ := List.mem_map.mp he
    obtain ⟨-, hs, ht⟩ := mem_links_iff.mp hl
    simp only [List.contains_eq_mem, List.mem_flatMap, List.mem_cons, List.not_mem_nil, or_false,
      Bool.not_eq_true', decide_eq_false_iff_not, not_exists, not_and, not_or] at hlone
    obtain ⟨hsource, htarget⟩ := hlone link hl
    rw [((node?_eq_some_iff h.keyedById).mp hs).2] at hsource
    rw [((node?_eq_some_iff h.keyedById).mp ht).2] at htarget
    exact ⟨Ne.symm hsource, Ne.symm htarget⟩
  edges := fun edge he label hl => ⟨(h.edgeLabels edge he label hl).2.2,
    (h.edgeLabels edge he label hl).2.1⟩
  nodeStyles := h.nodeStyles
  edgeStyles := h.edgeStyles
  size := hsize

end Written

section ReadBack

theorem map_id_writtenStatements (hk : d.KeyedById) (he : ∀ link ∈ links d, link.KeepsEdge) :
    ((writtenStatements d).flatMap Statement.refs).map (String.ofList ·.id) =
      (mentionedNodes d).map Node.id := by
  have hlinks : ((links d).flatMap fun link => (Statement.ofLine (linkContent link)).refs).map
      (String.ofList ·.id) =
        ((links d).flatMap fun link => [link.source, link.target]).map Node.id := by
    rw [List.map_flatMap, List.map_flatMap]
    refine List.flatMap_congr fun link hl => ?_
    obtain ⟨-, hs, ht⟩ := mem_links_iff.mp hl
    obtain ⟨⟨source, arrow, target⟩, hedge, hbare⟩ := Option.map_eq_some_iff.mp (he link hl)
    have hline : Statement.ofLine (linkContent link) = .edge source arrow target := by
      cases hline : Statement.ofLine (linkContent link) <;> rw [hline] at hedge <;> cases hedge
      rfl
    have hsource : String.ofList source.id = link.source.id :=
      (congrArg Edge.source hbare).trans ((node?_eq_some_iff hk).mp hs).2.symm
    have htarget : String.ofList target.id = link.target.id :=
      (congrArg Edge.target hbare).trans ((node?_eq_some_iff hk).mp ht).2.symm
    simp [hline, Statement.refs, hsource, htarget]
  rw [flatMap_refs_eq_append, List.map_append, hlinks, mentionedNodes, List.map_append]
  simp [refOf, String.ofList_toList]

theorem bareNode_comp_readNode : bareNode ∘ readNode = bareNode := by
  funext node
  simp only [Function.comp_apply, bareNode, readNode]

private theorem map_bareNode_foldl_styled (styles : List NodeStyleLine) (node : Node) (k : String) :
    (styles.foldl (fun o style => some (Draft.styled style (o.getD (.stub k)))) (some node)).map
      bareNode = some (bareNode node) := by
  induction styles generalizing node with
  | nil => rfl
  | cons style styles ih => exact ih (Draft.styled style node)

theorem find?_refs (h : d.IsWritable) (he : ∀ link ∈ links d, link.KeepsEdge) (k : String) :
    (((writtenStatements d).flatMap Statement.refs).foldl Draft.refer .empty).find? k =
      (d.node? k).map fun node =>
        Draft.describedAs (Draft.lastDescription (d.writtenRefs node.id)) (.stub node.id) := by
  have hids := map_id_writtenStatements h.keyed he
  have hmention : k ∈ ((writtenStatements d).flatMap Statement.refs).map (String.ofList ·.id) ↔
      (d.node? k).isSome := by
    rw [hids, List.mem_map, Option.isSome_iff_exists]
    exact exists_congr fun node => by rw [mem_mentionedNodes_iff h.keyed, node?_eq_some_iff h.keyed]
  cases hn : d.node? k with
  | some node =>
    obtain ⟨-, rfl⟩ := (node?_eq_some_iff h.keyed).mp hn
    rw [Draft.find?_foldl_refer_empty _ _ (hmention.mpr (by simp [hn])), Option.map_some, writtenRefs]
  | none =>
    have hrefs : ((writtenStatements d).flatMap Statement.refs).filter (String.ofList ·.id = k) =
        [] := by
      rw [List.filter_eq_nil_iff]
      intro ref href hid
      have hsome := hmention.mp (List.mem_map.mpr ⟨ref, href, by simpa using hid⟩)
      simp [hn] at hsome
    rw [Draft.find?_foldl_refer, hrefs]
    rfl

theorem isSome_node?_of_mem_nodeStyles (h : d.IsWritable) {style : NodeStyleLine}
    (hs : style ∈ (writtenStatements d).filterMap Statement.nodeStyle?) :
    (d.node? (String.ofList style.id)).isSome := by
  rw [filterMap_nodeStyle? h] at hs
  obtain ⟨node, hmem, hstyle⟩ := List.mem_filterMap.mp hs
  unfold nodeStyleStatement? at hstyle
  split at hstyle <;> cases hstyle
  rw [String.ofList_toList, (node?_eq_some_iff h.keyed).mpr ⟨hmem, rfl⟩]
  rfl

theorem map_bareNode_written (h : d.IsWritable) (he : ∀ link ∈ links d, link.KeepsEdge)
    (k : String) :
    ((((writtenStatements d).filterMap Statement.nodeStyle?).foldl Draft.styleNode
      (((writtenStatements d).flatMap Statement.refs).foldl Draft.refer .empty)).find? k).map
        bareNode =
      (d.node? k).map fun node =>
        Draft.describedAs (Draft.lastDescription (d.writtenRefs node.id)) (.stub node.id) := by
  rw [Draft.find?_foldl_styleNode, find?_refs h he]
  cases hn : d.node? k with
  | some node =>
    rw [Option.map_some, map_bareNode_foldl_styled]
    cases Draft.lastDescription (d.writtenRefs node.id) <;> rfl
  | none =>
    have hstyles : ((writtenStatements d).filterMap Statement.nodeStyle?).filter
        (String.ofList ·.id = k) = [] := by
      rw [List.filter_eq_nil_iff]
      intro style hstyle hid
      have hsome := isSome_node?_of_mem_nodeStyles h hstyle
      rw [show String.ofList style.id = k by simpa using hid, hn] at hsome
      cases hsome
    rw [hstyles]
    rfl

theorem map_bare_written {lines : List NumberedLine}
    (hlines : lines.map (fun line => Statement.ofLine line.content) = writtenStatements d)
    (kind : DiagramKind) (direction : Direction) :
    ((lines.foldl Draft.add .empty).finish kind direction).document.edges.map Edge.bare =
      (links d).filterMap fun link =>
        (Statement.ofLine (linkContent link)).edge?.map bareEdge := by
  have hnew : ∀ i (e : NodeRef × Arrow × NodeRef),
      (Draft.newEdge i e.1 e.2.1 e.2.2).bare = bareEdge e := fun _ _ => by
    simp only [bareEdge, Draft.newEdge, Edge.bare]
  rw [Draft.map_edges_finish hlines kind direction (fun _ _ => rfl) hnew, filterMap_edge?,
    List.map_filterMap]

theorem map_bareNode_arranged (direction : Direction) (id : String) :
    ((d.arranged direction).node? id).map bareNode = (d.node? id).map bareNode := by
  rw [Document.node?, Document.arranged, Keyed.find?_mapValues, Option.map_map]
  rfl

/-- A document with a link for every edge is read back exactly if every line of a link keeps its edge
and the lines together keep the nodes. -/
theorem isReadBack_iff (h : d.IsWritable) (hlinks : (links d).map Link.edge = d.edges) :
    d.IsReadBack ↔
      (∀ link ∈ links d, link.KeepsEdge) ∧ ∀ node ∈ d.nodes.values, d.KeepsNode node := by
  obtain ⟨lines, hlines, hread⟩ := readChars_writeChars h
  have hread := readArranged_of_readChars hread
  have hedges : ((lines.foldl Draft.add .empty).finish d.kind d.direction).document.edges.map
      Edge.bare = d.edges.map Edge.bare ↔ ∀ link ∈ links d, link.KeepsEdge := by
    rw [map_bare_written hlines, ← hlinks, List.map_map,
      List.filterMap_eq_map_iff_forall_eq_some]
    rfl
  have hnodes : ∀ he : ∀ link ∈ links d, link.KeepsEdge, ∀ id,
      (((lines.foldl Draft.add .empty).finish d.kind d.direction).arranged.document.node? id).map
        bareNode = (d.node? id).map fun node =>
          Draft.describedAs (Draft.lastDescription (d.writtenRefs node.id)) (.stub node.id) := by
    intro he id
    rw [Reading.arranged, map_bareNode_arranged, Document.node?, Draft.nodes_finish hlines,
      map_bareNode_written h he]
  constructor
  · rintro ⟨again, hagain, -, -, -, hreadNodes, hreadEdges⟩
    rw [hread, Except.ok.injEq, Except.ok.injEq] at hagain
    subst hagain
    have he := hedges.mp hreadEdges
    refine ⟨he, fun node hn => ?_⟩
    have hfound := (hnodes he node.id).symm.trans (hreadNodes node.id)
    rw [(node?_eq_some_iff h.keyed).mpr ⟨hn, rfl⟩] at hfound
    exact Option.some.inj hfound
  · rintro ⟨he, hkeeps⟩
    refine ⟨_, hread, ?_, rfl, rfl, fun id => ?_, hedges.mpr he⟩
    · refine issues_written (fun link hl => ?_) hlines d.kind d.direction
      obtain ⟨e, hedge, -⟩ := Option.map_eq_some_iff.mp (he link hl)
      rw [hedge]
      rfl
    · rw [hnodes he]
      cases hn : d.node? id with
      | none => rfl
      | some node => exact congrArg some (hkeeps node (mem_values_of_node? hn))

/-- Where every link is cut at its arrow, the text says of each edge and each node what it was written
for. -/
theorem IsWellFormed.isReadBack_of_isCut (h : d.IsWellFormed) (hw : d.IsWritable)
    (hc : ∀ link ∈ links d, link.IsCut) : d.IsReadBack := by
  obtain ⟨again, hread, hissues, hkind, hdirection, hnodes, hedges⟩ := readChars_written hw hc
  refine ⟨again.arranged, readArranged_of_readChars hread, hissues, hkind, hdirection, fun id => ?_, ?_⟩
  · rw [Reading.arranged, map_bareNode_arranged, hnodes, Option.map_map, bareNode_comp_readNode]
  · change again.document.edges.map Edge.bare = _
    rw [hedges, ← h.map_edge_links, List.map_map]
    apply List.ext_getElem?
    intro i
    rw [List.getElem?_map, List.getElem?_mapIdx, List.getElem?_map, Option.map_map]
    cases hget : (links d)[i]? with
    | none => rfl
    | some link =>
      have hlabel := h.shownLabel_eq (mem_links_iff.mp (List.mem_of_getElem? hget)).1
      simp [readEdge, Edge.bare, hlabel]

end ReadBack

end Document

namespace Diagram

/-- What is read from a text comes back from the text that is written for it exactly if every line of
a link keeps its edge and the lines together keep the nodes. It is enough that the search finds the
arrow of every link in its place. -/
theorem isReadBack_of_readArranged {text : String} {reading : Reading}
    (h : readArranged text = .ok (.ok reading))
    (hsize : reading.document.edges.length ≤ 10 ^ OversizedNumeral.limit) :
    (reading.document.IsReadBack ↔ (∀ link ∈ links reading.document, link.KeepsEdge) ∧
      ∀ node ∈ reading.document.nodes.values, reading.document.KeepsNode node) ∧
    ((∀ link ∈ links reading.document, link.IsCut) → reading.document.IsReadBack) := by
  have hformed := isWellFormed_of_readArranged h
  have hw := hformed.isWritable (isFlow_of_readArranged h).1 hsize
  exact ⟨Document.isReadBack_iff hw hformed.map_edge_links, hformed.isReadBack_of_isCut hw⟩

/-- An arrow that the label of an edge ends in would be completed by a bar in the label of a node,
which is only met on another line. -/
def hiddenArrowText : String :=
  "flowchart TD\nA ==>|x -->| B\nB[p|q]"

/-- The text is read without a report and the check finds nothing in it, but its edge is lost from the
text that is written. -/
theorem not_isReadBack_hiddenArrowText : ∃ reading,
    readArranged hiddenArrowText = .ok (.ok reading) ∧ reading.issues = [] ∧
      reading.document.issues = [] ∧ ¬reading.document.IsReadBack := by
  have htest : testReading (readArranged hiddenArrowText) (fun reading =>
      reading.issues = [] ∧ reading.document.issues = [] ∧
        reading.document.edges.length ≤ 10 ^ OversizedNumeral.limit ∧
          ∃ link ∈ links reading.document, ¬link.KeepsEdge) = true := by
    decide +kernel
  obtain ⟨reading, hread, htrue⟩ := exists_of_testReading htest
  obtain ⟨hissues, hcheck, hsize, link, hl, hlost⟩ := of_decide_eq_true htrue
  refine ⟨reading, hread, hissues, hcheck, fun hback => ?_⟩
  exact hlost (((isReadBack_of_readArranged hread hsize).1.mp hback).1 link hl)

end Diagram
end Flowchart
