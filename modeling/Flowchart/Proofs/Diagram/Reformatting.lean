import Flowchart.Proofs.Diagram.Formatting

/-! Formatting a second time: what is read from a written text has its nodes in the order in which the
lines mention them, and its styles without the semicolons at their ends. Nothing else changes, and
formatting once more changes nothing. -/
namespace Flowchart

open Text Diagram

namespace Diagram

section StyleTexts

theorem readAll_nodeStyleText {style : NodeStyle} (h : style.IsDeclarable) :
    Declaration.readAll (nodeStyleText style) = nodeDeclared style := by
  rw [nodeStyleText_eq, readAll_written (isWritten_of_mem_nodeDeclared h)]

theorem readAll_edgeStyleText {style : EdgeStyle} (h : style.IsDeclarable) :
    Declaration.readAll (edgeStyleText style) = edgeDeclared style := by
  rw [edgeStyleText_eq, readAll_written (isWritten_of_mem_edgeDeclared h)]

end StyleTexts

end Diagram

namespace Document

variable {d : Document}

/-- The document with its nodes in the order in which the lines of its text mention them. -/
def inMentionOrder (d : Document) : Document :=
  { d with nodes := .ofValues Node.id (mentionedNodes d) }

/-- The document without places, every style as it is read back from its text. -/
def reread (d : Document) : Document :=
  { d with nodes := d.nodes.mapValues fun _ => readNode, edges := (links d).mapIdx readEdge }

def styledIds (d : Document) : List String :=
  (d.nodes.values.filter (·.style ≠ .standard)).map Node.id

/-- No style is written with a semicolon at its end, which would be read as the end of the line. -/
structure StylesStand (d : Document) : Prop where
  nodes : ∀ node ∈ d.nodes.values, (nodeStyleText node.style).getLast? ≠ some ';'
  edges : ∀ edge ∈ d.edges, (edgeStyleText edge.style).getLast? ≠ some ';'

instance (d : Document) : Decidable d.StylesStand :=
  decidable_of_iff ((∀ node ∈ d.nodes.values, (nodeStyleText node.style).getLast? ≠ some ';') ∧
    ∀ edge ∈ d.edges, (edgeStyleText edge.style).getLast? ≠ some ';')
    ⟨fun ⟨hn, he⟩ => ⟨hn, he⟩, fun ⟨hn, he⟩ => ⟨hn, he⟩⟩

section Order

theorem keyedById_inMentionOrder (d : Document) : d.inMentionOrder.KeyedById :=
  Keyed.keyedBy_iff.mp fun _ _ hn => (Keyed.mem_of_find?_ofValues hn).2

variable (hk : d.KeyedById)
include hk

theorem node?_inMentionOrder (id : String) : d.inMentionOrder.node? id = d.node? id := by
  have hfound : ∀ {node : Node}, d.inMentionOrder.node? id = some node → d.node? id = some node := by
    intro node hn
    obtain ⟨hmem, hid⟩ := Keyed.mem_of_find?_ofValues hn
    exact (node?_eq_some_iff hk).mpr ⟨(mem_mentionedNodes_iff hk).mp hmem, hid⟩
  cases hn : d.inMentionOrder.node? id with
  | some node => exact (hfound hn).symm
  | none =>
    rw [node?, inMentionOrder, Keyed.find?_ofValues, List.find?_eq_none] at hn
    refine (Option.eq_none_iff_forall_ne_some.mpr fun node hsome => ?_).symm
    obtain ⟨hmem, hid⟩ := (node?_eq_some_iff hk).mp hsome
    exact hn node (List.mem_reverse.mpr ((mem_mentionedNodes_iff hk).mpr hmem)) (by simpa using hid)

theorem mem_values_inMentionOrder {node : Node} :
    node ∈ d.inMentionOrder.nodes.values ↔ node ∈ d.nodes.values := by
  rw [Keyed.mem_values_iff, Keyed.mem_values_iff]
  exact exists_congr fun id => by
    rw [show d.inMentionOrder.nodes.find? id = d.nodes.find? id from node?_inMentionOrder hk id]

theorem links_inMentionOrder : links d.inMentionOrder = links d := by
  unfold links
  simp only [node?_inMentionOrder hk]
  rfl

theorem values_inMentionOrder : d.inMentionOrder.nodes.values =
    (Keyed.ofValues Node.id ((links d).flatMap fun link => [link.source, link.target])).values ++
      loneNodes d := by
  have hnew : ∀ node ∈ loneNodes d, node.id ∉
      ((links d).flatMap fun link => [link.source, link.target]).map Node.id := by
    intro node hn
    have hlone := (List.mem_filter.mp hn).2
    rw [List.map_flatMap]
    simpa using hlone
  have hnodup : ((loneNodes d).map Node.id).Nodup := by
    have hsublist : ((loneNodes d).map Node.id).Sublist d.nodes.keys := by
      rw [← (Keyed.keyedBy_iff.mpr hk).map_values]
      exact List.filter_sublist.map _
    exact d.nodes.nodup_keys.sublist hsublist
  exact Keyed.values_ofValues_append hnodup hnew

theorem loneNodes_inMentionOrder : loneNodes d.inMentionOrder = loneNodes d := by
  obtain ⟨ends, hends⟩ : ∃ ends,
      (links d).flatMap (fun link => [link.source, link.target]) = ends := ⟨_, rfl⟩
  have hmentioned : ((links d).flatMap fun link => [link.source.id, link.target.id]) =
      ends.map Node.id := by
    rw [← hends, List.map_flatMap]
    rfl
  have hvalues := values_inMentionOrder hk
  rw [hends] at hvalues
  have hfirst : (Keyed.ofValues Node.id ends).values.filter
      (fun node => !(ends.map Node.id).contains node.id) = [] := by
    rw [List.filter_eq_nil_iff]
    intro node hn
    obtain ⟨id, hid⟩ := Keyed.mem_values_iff.mp hn
    rw [List.contains_iff_mem.mpr (List.mem_map_of_mem (Keyed.mem_of_find?_ofValues hid).1)]
    decide
  have hlast : (loneNodes d).filter (fun node => !(ends.map Node.id).contains node.id) =
      loneNodes d := by
    rw [List.filter_eq_self]
    intro node hn
    have hlone := (List.mem_filter.mp hn).2
    rwa [hmentioned] at hlone
  calc loneNodes d.inMentionOrder
    _ = d.inMentionOrder.nodes.values.filter fun node => !(ends.map Node.id).contains node.id := by
      rw [loneNodes, links_inMentionOrder hk, hmentioned]
    _ = loneNodes d := by rw [hvalues, List.filter_append, hfirst, hlast, List.nil_append]

theorem mentionedNodes_inMentionOrder : mentionedNodes d.inMentionOrder = mentionedNodes d := by
  rw [mentionedNodes, links_inMentionOrder hk, loneNodes_inMentionOrder hk, mentionedNodes]

theorem perm_values_inMentionOrder : d.inMentionOrder.nodes.values.Perm d.nodes.values := by
  have hnodup : ∀ {e : Document}, e.KeyedById → e.nodes.values.Nodup := fun he => by
    refine List.Nodup.of_map Node.id ?_
    rw [(Keyed.keyedBy_iff.mpr he).map_values]
    exact Keyed.nodup_keys _
  exact (List.perm_ext_iff_of_nodup (hnodup (keyedById_inMentionOrder d)) (hnodup hk)).mpr
    fun _ => mem_values_inMentionOrder hk

theorem perm_styleLines_inMentionOrder : (styleLines d.inMentionOrder).Perm (styleLines d) := by
  rw [styleLines, styleLines, links_inMentionOrder hk]
  exact ((perm_values_inMentionOrder hk).filterMap _).append_right _

theorem exists_front_inMentionOrder : ∃ front, textLines d = front ++ styleLines d ∧
    textLines d.inMentionOrder = front ++ styleLines d.inMentionOrder := by
  have hheader : headerText d.inMentionOrder = headerText d := rfl
  have hperm := perm_styleLines_inMentionOrder hk
  unfold textLines
  rw [hheader, links_inMentionOrder hk, loneNodes_inMentionOrder hk]
  generalize headerText d :: (links d).map linkText ++ (loneNodes d).map (indent ++ nodeText ·) = above
  cases hs : styleLines d with
  | nil =>
    rw [hs, List.perm_nil] at hperm
    rw [hperm]
    exact ⟨above, by simp, by simp⟩
  | cons line lines =>
    cases hx : styleLines d.inMentionOrder with
    | nil =>
      rw [hs, hx] at hperm
      exact absurd hperm.nil_eq (by simp)
    | cons other others =>
      exact ⟨above ++ [[]], by simp, by simp⟩

end Order

section Reading

theorem foldl_styleNode_refs (h : d.IsWritable)
    (hids : ((writtenStatements d).flatMap Statement.refs).map (String.ofList ·.id) =
      (mentionedNodes d).map Node.id)
    (hrefs : ∀ k, (((writtenStatements d).flatMap Statement.refs).foldl Draft.refer .empty).find? k =
      (d.node? k).map bareNode) :
    ((writtenStatements d).filterMap Statement.nodeStyle?).foldl Draft.styleNode
      (((writtenStatements d).flatMap Statement.refs).foldl Draft.refer .empty) =
        d.inMentionOrder.reread.nodes := by
  have hmentioned : (((writtenStatements d).flatMap Statement.refs).foldl Draft.refer .empty).keys =
      d.inMentionOrder.nodes.keys := by
    rw [Keyed.keys_foldl Draft.keys_refer, hids, inMentionOrder, Keyed.keys_ofValues]
    rfl
  refine Keyed.ext_find? ?_ fun k => ?_
  · rw [Keyed.keys_foldl Draft.keys_styleNode, Keyed.foldl_addKey_of_subset, hmentioned, reread,
      Keyed.keys_mapValues]
    intro id hid
    obtain ⟨style, hstyle, rfl⟩ := List.mem_map.mp hid
    rw [← Keyed.isSome_find?_iff, hrefs, Option.isSome_map]
    exact isSome_node?_of_mem_nodeStyles h hstyle
  · rw [find?_styled h hrefs, reread, Keyed.find?_mapValues, ← node?_inMentionOrder h.keyed]
    rfl

theorem readChars_reread_of_foldl (h : d.IsWritable)
    (he : ∀ link ∈ links d, (Statement.ofLine (linkContent link)).edge?.isSome)
    (hnodes : ((writtenStatements d).filterMap Statement.nodeStyle?).foldl Draft.styleNode
      (((writtenStatements d).flatMap Statement.refs).foldl Draft.refer .empty) =
        d.inMentionOrder.reread.nodes)
    (hedges : ((writtenStatements d).filterMap Statement.edgeStyle?).foldl Draft.styleEdges
      (Draft.newEdges 0 ((writtenStatements d).filterMap Statement.edge?)) =
        d.inMentionOrder.reread.edges) :
    readChars (writeChars d) = .ok (.ok ⟨d.inMentionOrder.reread, []⟩) := by
  obtain ⟨lines, hlines, hread⟩ := readChars_writeChars h
  have hissues := issues_written he hlines d.kind d.direction
  rw [← Draft.nodes_finish hlines d.kind d.direction] at hnodes
  rw [← Draft.edges_finish hlines d.kind d.direction] at hedges
  rw [hread]
  rw [Draft.finish] at hissues hnodes hedges ⊢
  dsimp only at hissues hnodes hedges
  rw [hissues, hnodes, hedges]
  rfl

end Reading

section Writing

def rereadLink (position : Nat) (link : Link) : Link :=
  ⟨readEdge position link, readNode link.source, readNode link.target⟩

theorem node?_reread (d : Document) (id : String) : d.reread.node? id = (d.node? id).map readNode :=
  Keyed.find?_mapValues _ _ _

theorem values_reread (d : Document) : d.reread.nodes.values = d.nodes.values.map readNode := by
  simp [reread, Keyed.values, Keyed.mapValues, Function.comp_def]

theorem links_reread (d : Document) : links d.reread = (links d).mapIdx rereadLink := by
  have hedges : d.reread.edges = (links d).zipIdx.map fun entry => readEdge entry.2 entry.1 :=
    List.mapIdx_eq_zipIdx_map
  rw [links, hedges, List.filterMap_map, List.mapIdx_eq_zipIdx_map, ← List.filterMap_eq_map]
  refine List.filterMap_congr fun entry hentry => ?_
  obtain ⟨-, hs, ht⟩ :=
    mem_links_iff.mp (List.mem_of_getElem? (List.mem_zipIdx_iff_getElem?.mp hentry))
  simp only [Function.comp_apply, node?_reread, readEdge, hs, ht]
  rfl

theorem map_links_reread {α : Type} {f : Link → α}
    (hf : ∀ position link, f (rereadLink position link) = f link) :
    (links d.reread).map f = (links d).map f := by
  rw [links_reread]
  apply List.ext_getElem?
  intro i
  simp [List.getElem?_mapIdx, hf, Function.comp_def]

theorem nodeText_readNode (node : Node) : nodeText (readNode node) = nodeText node := by
  simp only [nodeText, readNode]

theorem shownLabel_readEdge (position : Nat) (link : Link) :
    shownLabel (readEdge position link) = shownLabel link.edge := by
  simp [shownLabel, readEdge]

theorem linkText_rereadLink (position : Nat) (link : Link) :
    linkText (rereadLink position link) = linkText link := by
  have harrow : (arrowOf (readEdge position link)).toText = (arrowOf link.edge).toText := by
    rw [toText_arrowOf, toText_arrowOf, shownLabel_readEdge]
    simp only [readEdge]
  simp only [linkText, rereadLink, nodeText_readNode, harrow]

theorem loneNodes_reread (d : Document) : loneNodes d.reread = (loneNodes d).map readNode := by
  have hmentioned : ((links d.reread).flatMap fun link => [link.source.id, link.target.id]) =
      (links d).flatMap fun link => [link.source.id, link.target.id] := by
    rw [List.flatMap_def, List.flatMap_def, map_links_reread]
    intro position link
    simp only [rereadLink, readNode]
  have hid : ∀ node, (readNode node).id = node.id := fun node => by simp only [readNode]
  simp only [loneNodes, hmentioned, values_reread, List.filter_map, Function.comp_def, hid]

theorem map_nodeText_reread (d : Document) :
    (loneNodes d.reread).map nodeText = (loneNodes d).map nodeText := by
  rw [loneNodes_reread, List.map_map]
  exact List.map_congr_left fun node _ => nodeText_readNode node

end Writing

section Lines

variable {e : Document}

theorem textLines_eq_iff (hheader : headerText d = headerText e)
    (hlinks : (links d).map linkText = (links e).map linkText)
    (hlone : (loneNodes d).map nodeText = (loneNodes e).map nodeText) :
    textLines d = textLines e ↔ styleLines d = styleLines e := by
  have hindent : (loneNodes d).map (indent ++ nodeText ·) =
      (loneNodes e).map (indent ++ nodeText ·) := by
    simpa [Function.comp_def] using congrArg (List.map (indent ++ ·)) hlone
  unfold textLines
  rw [hheader, hlinks, hindent, List.append_cancel_left_eq]
  cases styleLines d <;> cases styleLines e <;> simp

end Lines

section StyledIds

end StyledIds

section Again

theorem IsWellFormed.inMentionOrder (h : d.IsWellFormed) : d.inMentionOrder.IsWellFormed := by
  have hk := h.keyedById
  have hmem : ∀ {node}, node ∈ d.inMentionOrder.nodes.values → node ∈ d.nodes.values :=
    (mem_values_inMentionOrder hk).mp
  have hkeys : ∀ {id}, id ∈ d.nodes.keys → id ∈ d.inMentionOrder.nodes.keys := by
    intro id hid
    rw [← Keyed.isSome_find?_iff] at hid ⊢
    exact (congrArg Option.isSome (node?_inMentionOrder hk id)).trans hid
  exact
    { keyed := fun id node hn => h.keyed id node ((node?_inMentionOrder hk id).symm.trans hn)
      ids := fun node hn => h.ids node (hmem hn)
      labels := fun node hn => h.labels node (hmem hn)
      keeps := fun node hn => h.keeps node (hmem hn)
      nodeStyles := fun node hn => h.nodeStyles node (hmem hn)
      ends := fun edge he => ⟨hkeys (h.ends edge he).1, hkeys (h.ends edge he).2⟩
      edgeLabels := h.edgeLabels
      edgeStyles := h.edgeStyles
      edgeIds := h.edgeIds
      lone := fun node hn => h.lone node (hmem hn) }

theorem StylesStand.inMentionOrder (h : d.StylesStand) (hk : d.KeyedById) :
    d.inMentionOrder.StylesStand where
  nodes := fun node hn => h.nodes node ((mem_values_inMentionOrder hk).mp hn)
  edges := h.edges

theorem IsWritable.inMentionOrder (h : d.IsWritable) : d.inMentionOrder.IsWritable where
  flow := h.flow
  keyed := keyedById_inMentionOrder d
  nodes := fun node hn => h.nodes node ((mem_values_inMentionOrder h.keyed).mp hn)
  lone := fun node hn => h.lone node (by rwa [loneNodes_inMentionOrder h.keyed] at hn)
  edges := h.edges
  nodeStyles := fun node hn => h.nodeStyles node ((mem_values_inMentionOrder h.keyed).mp hn)
  edgeStyles := h.edgeStyles
  size := h.size

theorem isWritable_of_readChars (h : d.IsWritable)
    (hread : readChars (writeChars d) = .ok (.ok ⟨d.inMentionOrder.reread, []⟩)) :
    d.inMentionOrder.reread.IsWritable := by
  refine (isWellFormed_of_readChars hread).isWritable h.flow ?_
  rw [reread, List.length_mapIdx, links_inMentionOrder h.keyed]
  exact length_links_le.trans h.size

section ReadBack

variable (h : d.IsWritable) (hf : d.IsWellFormed) (he : ∀ link ∈ links d, link.KeepsEdge)
  (hn : ∀ node ∈ d.nodes.values, d.KeepsNode node)
include h hf he hn

end ReadBack

end Again

end Document

namespace Diagram

end Diagram
end Flowchart
