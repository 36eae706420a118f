import Flowchart.Proofs.Diagram.WrittenText

/-! Writing a document and reading its text gives the document back, up to places and edge ids: what
each node and each edge is read as, and when this is what was written. -/
namespace Flowchart

open Text Diagram
open NumberedLine (dropSemicolons)

def Node.unplaced (node : Node) : Node :=
  { node with position := none }

def Edge.unnamed (edge : Edge) : Edge :=
  { edge with id := "" }

/-- The edge as its text form has it: without its id, and an empty label counts as none. -/
def Edge.shown (edge : Edge) : Edge :=
  { edge with id := "", label := shownLabel edge }

namespace Diagram

variable {d : Document}

section Keys

variable {α β κ : Type} {l : List α} {f : α → Option β} {p : β → Bool} {key : α → κ} {k : κ}

private theorem filter_filterMap_eq_nil
    (hp : ∀ a ∈ l, ∀ b, f a = some b → (p b = true ↔ key a = k)) (hk : ∀ a ∈ l, key a ≠ k) :
    (l.filterMap f).filter p = [] := by
  rw [List.filter_eq_nil_iff]
  intro b hb
  obtain ⟨a, ha, hab⟩ := List.mem_filterMap.mp hb
  rw [hp a ha b hab]
  exact hk a ha

private theorem filter_filterMap_eq_toList
    (hp : ∀ a ∈ l, ∀ b, f a = some b → (p b = true ↔ key a = k)) (hn : (l.map key).Nodup)
    {a : α} (ha : a ∈ l) (hk : key a = k) : (l.filterMap f).filter p = (f a).toList := by
  induction l with
  | nil => cases ha
  | cons x l ih =>
    rw [List.map_cons, List.nodup_cons] at hn
    have hpl : ∀ a ∈ l, ∀ b, f a = some b → (p b = true ↔ key a = k) :=
      fun a ha => hp a (List.mem_cons_of_mem _ ha)
    rcases List.mem_cons.mp ha with rfl | hal
    · have hrest : (l.filterMap f).filter p = [] := by
        refine filter_filterMap_eq_nil hpl fun b hb hbk => hn.1 ?_
        rw [hk, ← hbk]
        exact List.mem_map_of_mem hb
      cases hf : f a with
      | none => simp [hf, hrest]
      | some b => simp [hf, hrest, (hp a (by simp) b hf).mpr hk]
    · have hx : key x ≠ k := by
        rintro rfl
        exact hn.1 (hk ▸ List.mem_map_of_mem hal)
      rw [← ih hpl hn.2 hal]
      cases hf : f x with
      | none => simp [hf]
      | some b =>
        have hb : p b = false := by
          rw [← Bool.not_eq_true, hp x (by simp) b hf]
          exact hx
        simp [hf, hb]

end Keys

def readNodeStyle (style : NodeStyle) : NodeStyle :=
  NodeStyle.standard.patched (Declaration.nodePatch
    (Declaration.readAll (dropSemicolons (nodeStyleText style))))

def readEdgeStyle (style : EdgeStyle) : EdgeStyle :=
  EdgeStyle.standard.patched (Declaration.edgePatch
    (Declaration.readAll (dropSemicolons (edgeStyleText style))))

theorem readAll_dropSemicolons_nil : Declaration.readAll (dropSemicolons []) = [] := by
  decide +kernel

theorem readNodeStyle_of_nil {style : NodeStyle} (h : nodeStyleText style = []) :
    readNodeStyle style = .standard := by
  rw [readNodeStyle, h, readAll_dropSemicolons_nil]
  rfl

theorem readEdgeStyle_of_nil {style : EdgeStyle} (h : edgeStyleText style = []) :
    readEdgeStyle style = .standard := by
  rw [readEdgeStyle, h, readAll_dropSemicolons_nil]
  rfl

theorem readNodeStyle_eq_iff {style : NodeStyle} (hs : style.IsDeclarable) :
    readNodeStyle style = style ↔ (nodeStyleText style).getLast? ≠ some ';' := by
  constructor
  · intro heq hend
    exact NodeStyle.patched_ne_of_semicolon hs hend heq
  · intro hend
    have hwritten := isWritten_of_mem_nodeDeclared hs
    rw [nodeStyleText_eq] at hend
    rw [readNodeStyle, nodeStyleText_eq, dropSemicolons_written hwritten hend,
      readAll_written hwritten, NodeStyle.patched_nodePatch]

theorem readEdgeStyle_eq_iff {style : EdgeStyle} (hs : style.IsDeclarable) :
    readEdgeStyle style = style ↔ (edgeStyleText style).getLast? ≠ some ';' := by
  constructor
  · intro heq hend
    exact EdgeStyle.patched_ne_of_semicolon hs hend heq
  · intro hend
    have hwritten := isWritten_of_mem_edgeDeclared hs
    rw [edgeStyleText_eq] at hend
    rw [readEdgeStyle, edgeStyleText_eq, dropSemicolons_written hwritten hend,
      readAll_written hwritten, EdgeStyle.patched_edgePatch]

section Statements

/-- The nodes in the order in which the lines of a written text mention them. -/
def mentionedNodes (d : Document) : List Node :=
  (links d).flatMap (fun link => [link.source, link.target]) ++ loneNodes d

theorem mem_mentionedNodes_iff (hk : d.KeyedById) {node : Node} :
    node ∈ mentionedNodes d ↔ node ∈ d.nodes.values := by
  constructor
  · intro h
    rcases List.mem_append.mp h with h | h
    · obtain ⟨link, hl, hn⟩ := List.mem_flatMap.mp h
      obtain ⟨-, hs, ht⟩ := mem_links_iff.mp hl
      simp only [List.mem_cons, List.not_mem_nil, or_false] at hn
      rcases hn with rfl | rfl
      · exact mem_values_of_node? hs
      · exact mem_values_of_node? ht
    · exact (List.mem_filter.mp h).1
  · intro h
    by_cases hlone : node ∈ loneNodes d
    · exact List.mem_append_right _ hlone
    · apply List.mem_append_left
      have hm : node.id ∈ (links d).flatMap fun link => [link.source.id, link.target.id] := by
        by_contra hm
        apply hlone
        rw [loneNodes, List.mem_filter]
        exact ⟨h, by simpa using hm⟩
      obtain ⟨link, hl, hid⟩ := List.mem_flatMap.mp hm
      obtain ⟨-, hs, ht⟩ := mem_links_iff.mp hl
      have hself := (node?_eq_some_iff hk).mpr ⟨h, rfl⟩
      simp only [List.mem_cons, List.not_mem_nil, or_false] at hid
      refine List.mem_flatMap.mpr ⟨link, hl, ?_⟩
      rcases hid with hid | hid
      · rw [← ((node?_eq_some_iff hk).mp hs).2, ← hid, hself, Option.some.injEq] at hs
        simp [hs]
      · rw [← ((node?_eq_some_iff hk).mp ht).2, ← hid, hself, Option.some.injEq] at ht
        simp [ht]

private theorem filterMap_links_eq_nil {β : Type} {f : Statement → Option β} (h : d.IsWritable)
    (hf : ∀ found, f (Statement.ofArrow found) = none) :
    ((links d).map fun link => Statement.ofLine (linkContent link)).filterMap f = [] := by
  rw [List.filterMap_eq_nil_iff]
  intro s hs
  obtain ⟨link, hl, rfl⟩ := List.mem_map.mp hs
  obtain ⟨found, hfound⟩ := exists_find?_linkContent link
  rw [ofLine_of_find? (isWritable_ends h hl).1 hfound, hf]

theorem filterMap_nodeStyle? (h : d.IsWritable) :
    (writtenStatements d).filterMap Statement.nodeStyle? =
      d.nodes.values.filterMap fun node => (nodeStyleStatement? node).bind Statement.nodeStyle? := by
  have hlinks := filterMap_links_eq_nil h fun found => (ofArrow_cases found).2.1
  have hedges : ((links d).zipIdx.filterMap fun entry =>
      edgeStyleStatement? entry.2 entry.1).filterMap Statement.nodeStyle? = [] := by
    rw [List.filterMap_eq_nil_iff]
    intro s hs
    obtain ⟨entry, -, hs⟩ := List.mem_filterMap.mp hs
    unfold edgeStyleStatement? at hs
    split at hs <;> cases hs
    rfl
  rw [writtenStatements, styleStatements, List.filterMap_append, List.filterMap_append,
    List.filterMap_append, hlinks, hedges, List.filterMap_map, List.filterMap_filterMap]
  simp [Statement.nodeStyle?, Function.comp_def]

theorem filterMap_edgeStyle? (h : d.IsWritable) :
    (writtenStatements d).filterMap Statement.edgeStyle? =
      (links d).zipIdx.filterMap fun entry =>
        (edgeStyleStatement? entry.2 entry.1).bind Statement.edgeStyle? := by
  have hlinks := filterMap_links_eq_nil h fun found => (ofArrow_cases found).2.2
  have hnodes : (d.nodes.values.filterMap nodeStyleStatement?).filterMap
      Statement.edgeStyle? = [] := by
    rw [List.filterMap_eq_nil_iff]
    intro s hs
    obtain ⟨node, -, hs⟩ := List.mem_filterMap.mp hs
    unfold nodeStyleStatement? at hs
    split at hs <;> cases hs
    rfl
  rw [writtenStatements, styleStatements, List.filterMap_append, List.filterMap_append,
    List.filterMap_append, hlinks, hnodes, List.filterMap_map, List.filterMap_filterMap]
  simp [Statement.edgeStyle?, Function.comp_def]

theorem filterMap_edge? (d : Document) : (writtenStatements d).filterMap Statement.edge? =
    (links d).filterMap fun link => (Statement.ofLine (linkContent link)).edge? := by
  have hstyles : (styleStatements d).filterMap Statement.edge? = [] := by
    rw [List.filterMap_eq_nil_iff]
    intro s hs
    rcases mem_styleStatements hs with ⟨style, rfl⟩ | ⟨position, -, ds, rfl⟩ <;> rfl
  rw [writtenStatements, List.filterMap_append, hstyles, List.filterMap_append, List.filterMap_map,
    List.filterMap_map]
  simp [Statement.edge?, Function.comp_def]

theorem flatMap_refs_eq_append (d : Document) : (writtenStatements d).flatMap Statement.refs =
    (links d).flatMap (fun link => (Statement.ofLine (linkContent link)).refs) ++
      (loneNodes d).map refOf := by
  have hstyles : (styleStatements d).flatMap Statement.refs = [] := by
    rw [List.flatMap_eq_nil_iff]
    intro s hs
    rcases mem_styleStatements hs with ⟨style, rfl⟩ | ⟨position, -, ds, rfl⟩ <;> rfl
  rw [writtenStatements, List.flatMap_append, List.flatMap_append, hstyles, List.append_nil,
    List.flatMap_map, List.flatMap_map]
  simp [Statement.refs, ← List.map_eq_flatMap]

theorem issues_written (he : ∀ link ∈ links d, (Statement.ofLine (linkContent link)).edge?.isSome)
    {lines : List NumberedLine}
    (hlines : lines.map (fun line => Statement.ofLine line.content) = writtenStatements d)
    (kind : DiagramKind) (direction : Direction) :
    ((lines.foldl Draft.add .empty).finish kind direction).issues = [] := by
  have hcases : ∀ s ∈ writtenStatements d, s.edge?.isSome ∨ (∃ ref, s = .node ref) ∨
      s ∈ styleStatements d := by
    intro s hs
    simp only [writtenStatements, List.mem_append, List.mem_map] at hs
    rcases hs with (⟨link, hl, rfl⟩ | ⟨node, -, rfl⟩) | hs
    · exact .inl (he link hl)
    · exact .inr (.inl ⟨_, rfl⟩)
    · exact .inr (.inr hs)
  have hlength : ((writtenStatements d).filterMap Statement.edge?).length = (links d).length := by
    rw [filterMap_edge?, List.length_filterMap_eq_countP, List.countP_eq_length]
    exact he
  refine Draft.issues_finish hlines kind direction (fun s hs => ?_) fun s hs style hstyle p hp => ?_
  · rcases hcases s hs with hedge | ⟨ref, rfl⟩ | hs
    · cases s <;> cases hedge
      rfl
    · rfl
    · rcases mem_styleStatements hs with ⟨style, rfl⟩ | ⟨position, -, ds, rfl⟩ <;> rfl
  · rw [hlength] at hp ⊢
    rcases hcases s hs with hedge | ⟨ref, rfl⟩ | hs
    · cases s <;> cases hedge
      cases hstyle
    · cases hstyle
    · rcases mem_styleStatements hs with ⟨_, rfl⟩ | ⟨position, hlt, ds, rfl⟩
      · cases hstyle
      · cases hstyle
        obtain rfl : p = position := by simpa [Draft.positionsOf] using hp
        exact hlt

end Statements

section Cut

variable (h : d.IsWritable) (hc : ∀ link ∈ links d, link.IsCut)
include h hc

theorem ofLine_link {link : Link} (hl : link ∈ links d) : Statement.ofLine (linkContent link) =
    .edge (refOf link.source) (shownArrow link.edge) (refOf link.target) :=
  ofLine_linkContent (isWritable_ends h hl).1 (isWritable_ends h hl).2 (hc link hl)

theorem flatMap_refs :
    (writtenStatements d).flatMap Statement.refs = (mentionedNodes d).map refOf := by
  rw [flatMap_refs_eq_append, mentionedNodes, List.map_append, List.map_flatMap]
  congr 1
  refine List.flatMap_congr fun link hl => ?_
  rw [ofLine_link h hc hl]
  rfl

theorem filterMap_edge?_eq_map : (writtenStatements d).filterMap Statement.edge? =
    (links d).map fun link => (refOf link.source, shownArrow link.edge, refOf link.target) := by
  rw [filterMap_edge?, ← List.filterMap_eq_map]
  refine List.filterMap_congr fun link hl => ?_
  rw [ofLine_link h hc hl]
  rfl

end Cut

section Nodes

def bareNode (node : Node) : Node :=
  { node with style := .standard, position := none }

def readNode (node : Node) : Node :=
  { node with style := readNodeStyle node.style, position := none }

private theorem lastDescription_refOf {node : Node} {ns : List Node} (hns : ∀ n ∈ ns, n = node)
    (hne : ns ≠ []) :
    Draft.lastDescription (ns.map refOf) = some (node.shape, node.label.toList) := by
  obtain ⟨n, rest, hrev⟩ := List.exists_cons_of_ne_nil (List.reverse_ne_nil_iff.mpr hne)
  obtain rfl : n = node := hns n (List.mem_reverse.mp (by simp [hrev]))
  rw [Draft.lastDescription, ← List.map_reverse, hrev]
  rfl

theorem find?_mentionedNodes (hk : d.KeyedById) (k : String) :
    (((mentionedNodes d).map refOf).foldl Draft.refer .empty).find? k =
      (d.node? k).map bareNode := by
  have hmem : ∀ n, n ∈ (mentionedNodes d).filter (·.id = k) ↔ d.node? k = some n := by
    intro n
    rw [List.mem_filter, mem_mentionedNodes_iff hk, node?_eq_some_iff hk, decide_eq_true_eq]
  have hfilter : ((mentionedNodes d).map refOf).filter (String.ofList ·.id = k) =
      ((mentionedNodes d).filter (·.id = k)).map refOf := by
    rw [List.filter_map]
    simp [Function.comp_def, refOf, String.ofList_toList]
  cases hn : d.node? k with
  | none =>
    have hnil : (mentionedNodes d).filter (·.id = k) = [] := by
      rw [List.eq_nil_iff_forall_not_mem]
      intro n hmn
      rw [hmem n, hn] at hmn
      cases hmn
    rw [Draft.find?_foldl_refer, hfilter, Keyed.find?_empty, hnil]
    rfl
  | some node =>
    obtain ⟨hmn, rfl⟩ := (node?_eq_some_iff hk).mp hn
    have hall : ∀ n ∈ (mentionedNodes d).filter (·.id = node.id), n = node := by
      intro n hmn
      rw [hmem n, hn, Option.some.injEq] at hmn
      exact hmn.symm
    have hmention : node.id ∈ ((mentionedNodes d).map refOf).map (String.ofList ·.id) := by
      rw [List.map_map]
      refine List.mem_map.mpr ⟨node, (mem_mentionedNodes_iff hk).mpr hmn, ?_⟩
      exact String.ofList_toList
    rw [Draft.find?_foldl_refer_empty _ _ hmention, hfilter,
      lastDescription_refOf hall (List.ne_nil_of_mem ((hmem node).mpr hn))]
    simp [Draft.describedAs, bareNode, Node.stub, String.ofList_toList]

theorem find?_styled (h : d.IsWritable) (hrefs : ∀ k,
    (((writtenStatements d).flatMap Statement.refs).foldl Draft.refer .empty).find? k =
      (d.node? k).map bareNode) (k : String) :
    (((writtenStatements d).filterMap Statement.nodeStyle?).foldl Draft.styleNode
      (((writtenStatements d).flatMap Statement.refs).foldl Draft.refer .empty)).find? k =
        (d.node? k).map readNode := by
  have hp : ∀ n ∈ d.nodes.values, ∀ line,
      (nodeStyleStatement? n).bind Statement.nodeStyle? = some line →
        (decide (String.ofList line.id = k) = true ↔ n.id = k) := by
    intro n _ line hline
    unfold nodeStyleStatement? at hline
    split at hline <;> cases hline
    simp [String.ofList_toList]
  rw [Draft.find?_foldl_styleNode, hrefs, filterMap_nodeStyle? h]
  cases hn : d.node? k with
  | none =>
    rw [filter_filterMap_eq_nil hp]
    · simp
    · intro n hmn hid
      have := (node?_eq_some_iff h.keyed).mpr ⟨hmn, hid⟩
      rw [hn] at this
      cases this
  | some node =>
    obtain ⟨hmn, hid⟩ := (node?_eq_some_iff h.keyed).mp hn
    have hnodup : (d.nodes.values.map Node.id).Nodup := by
      rw [(Keyed.keyedBy_iff.mpr h.keyed).map_values]
      exact d.nodes.nodup_keys
    rw [filter_filterMap_eq_toList hp hnodup hmn hid]
    cases htext : nodeStyleText node.style with
    | nil => simp [nodeStyleStatement?, htext, bareNode, readNode, readNodeStyle_of_nil htext]
    | cons c text =>
      simp [nodeStyleStatement?, htext, bareNode, readNode, readNodeStyle, Statement.nodeStyle?,
        Draft.styled]

theorem find?_written (h : d.IsWritable) (hc : ∀ link ∈ links d, link.IsCut) (k : String) :
    (((writtenStatements d).filterMap Statement.nodeStyle?).foldl Draft.styleNode
      (((writtenStatements d).flatMap Statement.refs).foldl Draft.refer .empty)).find? k =
        (d.node? k).map readNode :=
  find?_styled h (fun k => by rw [flatMap_refs h hc, find?_mentionedNodes h.keyed]) k

end Nodes

section Edges

def readEdge (position : Nat) (link : Link) : Edge where
  id := Draft.edgeId position link.edge.source link.edge.target
  source := link.edge.source
  target := link.edge.target
  label := shownLabel link.edge
  arrow := link.edge.arrow
  style := readEdgeStyle link.edge.style

theorem edges_styled (h : d.IsWritable)
    (hnew : Draft.newEdges 0 ((writtenStatements d).filterMap Statement.edge?) =
      (links d).mapIdx fun i link => { readEdge i link with style := .standard }) :
    ((writtenStatements d).filterMap Statement.edgeStyle?).foldl Draft.styleEdges
      (Draft.newEdges 0 ((writtenStatements d).filterMap Statement.edge?)) =
        (links d).mapIdx readEdge := by
  have hp : ∀ entry ∈ (links d).zipIdx, ∀ line,
      (edgeStyleStatement? entry.2 entry.1).bind Statement.edgeStyle? = some line →
        ∀ i n, (decide (i ∈ Draft.positionsOf line n) = true ↔ entry.2 = i) := by
    intro entry _ line hline i n
    unfold edgeStyleStatement? at hline
    split at hline <;> cases hline
    simp [Draft.positionsOf, eq_comm]
  apply List.ext_getElem?
  intro i
  rw [Draft.getElem?_foldl_styleEdges, hnew, filterMap_edgeStyle? h, List.getElem?_mapIdx,
    List.getElem?_mapIdx]
  cases hget : (links d)[i]? with
  | none => rfl
  | some link =>
    have hmem : (link, i) ∈ (links d).zipIdx := List.mem_zipIdx_iff_getElem?.mpr hget
    have hnodup : ((links d).zipIdx.map Prod.snd).Nodup := by
      rw [List.zipIdx_map_snd]
      exact List.nodup_range'
    simp only [Option.map_some]
    rw [filter_filterMap_eq_toList (fun entry he line hl => hp entry he line hl i _) hnodup hmem rfl]
    cases htext : edgeStyleText link.edge.style with
    | nil => simp [edgeStyleStatement?, htext, readEdge, readEdgeStyle_of_nil htext]
    | cons c text =>
      simp [edgeStyleStatement?, htext, readEdge, readEdgeStyle, Statement.edgeStyle?,
        Draft.styledEdge]

theorem edges_written (h : d.IsWritable) (hc : ∀ link ∈ links d, link.IsCut) :
    ((writtenStatements d).filterMap Statement.edgeStyle?).foldl Draft.styleEdges
      (Draft.newEdges 0 ((writtenStatements d).filterMap Statement.edge?)) =
        (links d).mapIdx readEdge := by
  refine edges_styled h ?_
  rw [filterMap_edge?_eq_map h hc]
  apply List.ext_getElem?
  intro i
  rw [Draft.newEdges, List.getElem?_mapIdx, List.getElem?_map, List.getElem?_mapIdx, Option.map_map]
  cases hget : (links d)[i]? with
  | none => rw [Option.map_none, Option.map_none]
  | some link =>
    obtain ⟨-, hs, ht⟩ := mem_links_iff.mp (List.mem_of_getElem? hget)
    have hsource := ((node?_eq_some_iff h.keyed).mp hs).2
    have htarget := ((node?_eq_some_iff h.keyed).mp ht).2
    simp [Draft.newEdge, refOf, readEdge, hsource, htarget, shownArrow]

end Edges

/-- The text of a document whose links are all cut at their arrows is read without a report, each
node and each edge as it is written. -/
theorem readChars_written (h : d.IsWritable) (hc : ∀ link ∈ links d, link.IsCut) :
    ∃ reading, readChars (writeChars d) = .ok (.ok reading) ∧ reading.issues = [] ∧
      reading.document.kind = d.kind ∧ reading.document.direction = d.direction ∧
      (∀ id, reading.document.node? id = (d.node? id).map readNode) ∧
      reading.document.edges = (links d).mapIdx readEdge := by
  obtain ⟨lines, hlines, hread⟩ := readChars_writeChars h
  refine ⟨_, hread, ?_, rfl, rfl, ?_, ?_⟩
  · refine issues_written (fun link hl => ?_) hlines _ _
    rw [ofLine_link h hc hl]
    rfl
  · intro id
    rw [Document.node?, Draft.nodes_finish hlines]
    exact find?_written h hc id
  · rw [Draft.edges_finish hlines]
    exact edges_written h hc

section Arranged

theorem node?_arranged (direction : Direction) (id : String) :
    ((d.arranged direction).node? id).map Node.unplaced = (d.node? id).map Node.unplaced := by
  rw [Document.node?, Document.arranged, Keyed.find?_mapValues, Option.map_map]
  rfl

theorem readArranged_of_readChars {reading : Reading}
    (h : readChars (writeChars d) = .ok (.ok reading)) :
    readArranged (write d) = .ok (.ok reading.arranged) :=
  readArranged_eq_reading_iff.mpr ⟨reading, by rw [write, String.toList_ofList, h], rfl⟩

/-- Where each style is read back as itself, nothing but places and edge ids is lost. -/
theorem readArranged_written (h : d.IsLegible) (ha : ∀ link ∈ links d, link.ArrowStands)
    (hn : ∀ node ∈ d.nodes.values, readNodeStyle node.style = node.style)
    (he : ∀ edge ∈ d.edges, readEdgeStyle edge.style = edge.style) :
    ∃ reading, readArranged (write d) = .ok (.ok reading) ∧ reading.issues = [] ∧
      reading.document.kind = d.kind ∧ reading.document.direction = d.direction ∧
      (∀ id, (reading.document.node? id).map Node.unplaced = (d.node? id).map Node.unplaced) ∧
      reading.document.edges.map Edge.unnamed = (links d).map fun link => link.edge.shown := by
  obtain ⟨reading, hread, hissues, hkind, hdirection, hnodes, hedges⟩ :=
    readChars_written h.isWritable fun _ hl => h.isCut hl (ha _ hl)
  refine ⟨reading.arranged, readArranged_of_readChars hread, hissues, hkind, hdirection, ?_, ?_⟩
  · intro id
    rw [Reading.arranged, node?_arranged, hnodes]
    cases hfound : d.node? id with
    | none => simp
    | some node => simp [readNode, Node.unplaced, hn node (mem_values_of_node? hfound)]
  · change reading.document.edges.map Edge.unnamed = _
    rw [hedges]
    apply List.ext_getElem?
    intro i
    rw [List.getElem?_map, List.getElem?_mapIdx, List.getElem?_map, Option.map_map]
    cases hget : (links d)[i]? with
    | none => simp
    | some link =>
      have hlink := (mem_links_iff.mp (List.mem_of_getElem? hget)).1
      simp [readEdge, Edge.unnamed, Edge.shown, he _ hlink]

end Arranged

end Diagram

end Flowchart
