import Flowchart.Proofs.Diagram.BodyLines
import Flowchart.Proofs.Diagram.Reformatting
import Flowchart.Proofs.Diagram.Survival

/-! The order of the nodes after a document has gone through its text: first the ends of the edges as
the lines mention them, then all others as they were. The style lines of the nodes follow this order in
the next text, and from then on nothing changes. -/
namespace Flowchart

open Text Diagram

namespace Document

variable {d : Document}

/-- The ids that the edges with both ends in the document name, each source before its target. -/
def linkedIds (d : Document) : List String :=
  (d.edges.filter fun e => (d.node? e.source).isSome && (d.node? e.target).isSome).flatMap
    fun e => [e.source, e.target]

def nodeStyleLines (d : Document) : List (List Char) :=
  d.nodes.values.filterMap nodeStyleLine?

section Order

theorem map_id_mentionedNodes_reread (d : Document) :
    (mentionedNodes d.reread).map Node.id = (mentionedNodes d).map Node.id := by
  have hid : ∀ node, (readNode node).id = node.id := fun node => by simp only [readNode]
  have hlinks : ((links d.reread).flatMap fun link => [link.source, link.target]).map Node.id =
      ((links d).flatMap fun link => [link.source, link.target]).map Node.id := by
    rw [List.map_flatMap, List.map_flatMap, List.flatMap_def, List.flatMap_def, map_links_reread]
    intro position link
    simp only [rereadLink, List.map_cons, hid]
  have hlone : (loneNodes d.reread).map Node.id = (loneNodes d).map Node.id := by
    rw [loneNodes_reread, List.map_map]
    exact List.map_congr_left fun node _ => hid node
  rw [mentionedNodes, mentionedNodes, List.map_append, hlinks, hlone, ← List.map_append]

variable (hk : d.KeyedById)
include hk

theorem flatMap_links :
    ((links d).flatMap fun link => [link.source.id, link.target.id]) = d.linkedIds := by
  rw [linkedIds, ← map_edge_links, List.flatMap_map]
  refine List.flatMap_congr fun link hl => ?_
  obtain ⟨-, hs, ht⟩ := mem_links_iff.mp hl
  rw [((node?_eq_some_iff hk).mp hs).2, ((node?_eq_some_iff hk).mp ht).2]

theorem map_id_inMentionOrder : d.inMentionOrder.nodes.values.map Node.id =
    d.linkedIds.eraseDups ++ (d.nodes.values.map Node.id).filter (· ∉ d.linkedIds) := by
  obtain ⟨ends, hends⟩ : ∃ ends,
      (links d).flatMap (fun link => [link.source, link.target]) = ends := ⟨_, rfl⟩
  have hids : ends.map Node.id = d.linkedIds := by
    rw [← hends, List.map_flatMap, ← flatMap_links hk]
    rfl
  have hlinked : (Keyed.ofValues Node.id ends).values.map Node.id = d.linkedIds.eraseDups := by
    have hkeyed : (Keyed.ofValues Node.id ends).KeyedBy Node.id :=
      fun _ _ hn => (Keyed.mem_of_find?_ofValues hn).2
    rw [hkeyed.map_values, Keyed.keys_ofValues, Keyed.foldl_addKey_nil, hids]
  have hlone : (loneNodes d).map Node.id =
      (d.nodes.values.map Node.id).filter (· ∉ d.linkedIds) := by
    rw [loneNodes, flatMap_links hk, List.filter_map]
    simp [Function.comp_def]
  rw [values_inMentionOrder hk, hends, List.map_append, hlinked, hlone]

theorem exists_frame_inMentionOrder : ∃ above below,
    textLines d = above ++ d.nodeStyleLines ++ below ∧
      textLines d.inMentionOrder = above ++ d.inMentionOrder.nodeStyleLines ++ below := by
  obtain ⟨front, hown, hother⟩ := exists_front_inMentionOrder hk
  refine ⟨front, (links d).zipIdx.filterMap fun entry => edgeStyleLine? entry.2 entry.1, ?_, ?_⟩
  · rw [hown, List.append_assoc]
    rfl
  · rw [hother, ← links_inMentionOrder hk, List.append_assoc]
    rfl

theorem keyedById_reread : d.reread.KeyedById := by
  refine Keyed.keyedBy_iff.mp fun id node hn => ?_
  obtain ⟨old, hold, rfl⟩ := Option.map_eq_some_iff.mp ((node?_reread d id).symm.trans hn)
  simpa only [readNode] using ((node?_eq_some_iff hk).mp hold).2

theorem inMentionOrder_eq_self
    (hkeys : ((mentionedNodes d).map Node.id).foldl Keyed.addKey [] = d.nodes.keys) :
    d.inMentionOrder = d := by
  have hnodes : d.inMentionOrder.nodes = d.nodes :=
    Keyed.ext_find? ((Keyed.keys_ofValues _ _).trans hkeys) (node?_inMentionOrder hk)
  exact congrArg (fun nodes => { d with nodes := nodes }) hnodes

/-- What is read from a text has its nodes in the order in which its own text mentions them. -/
theorem inMentionOrder_reread : d.inMentionOrder.reread.inMentionOrder = d.inMentionOrder.reread := by
  refine inMentionOrder_eq_self (keyedById_reread (keyedById_inMentionOrder d)) ?_
  rw [map_id_mentionedNodes_reread, mentionedNodes_inMentionOrder hk, reread, Keyed.keys_mapValues,
    inMentionOrder, Keyed.keys_ofValues]

end Order

section Styles

variable (h : d.IsWritable) (hs : d.StylesStand)
include h hs

theorem readNodeStyle_eq {node : Node} (hn : node ∈ d.nodes.values) :
    readNodeStyle node.style = node.style :=
  (readNodeStyle_eq_iff (h.nodeStyles node hn)).mpr (hs.nodes node hn)

theorem readEdgeStyle_eq {edge : Edge} (he : edge ∈ d.edges) :
    readEdgeStyle edge.style = edge.style :=
  (readEdgeStyle_eq_iff (h.edgeStyles edge he)).mpr (hs.edges edge he)

theorem nodeStyleLines_reread : d.reread.nodeStyleLines = d.nodeStyleLines := by
  rw [nodeStyleLines, values_reread, List.filterMap_map]
  refine List.filterMap_congr fun node hn => ?_
  simp only [Function.comp_apply, nodeStyleLine?, readNode, readNodeStyle_eq h hs hn]

theorem textLines_reread : textLines d.reread = textLines d := by
  have hheader : headerText d.reread = headerText d := rfl
  refine (textLines_eq_iff hheader (map_links_reread linkText_rereadLink)
    (map_nodeText_reread d)).mpr ?_
  have hedges : (links d.reread).zipIdx.filterMap (fun entry => edgeStyleLine? entry.2 entry.1) =
      (links d).zipIdx.filterMap fun entry => edgeStyleLine? entry.2 entry.1 := by
    have hlinks : (links d.reread).zipIdx =
        (links d).zipIdx.map fun entry => (rereadLink entry.2 entry.1, entry.2) := by
      rw [links_reread]
      apply List.ext_getElem?
      intro i
      simp [Function.comp_def]
    rw [hlinks, List.filterMap_map]
    refine List.filterMap_congr fun entry hl => ?_
    have hedge := (mem_links_iff.mp (lt_of_mem_zipIdx h hl).1).1
    simp only [Function.comp_apply, edgeStyleLine?, rereadLink, readEdge,
      readEdgeStyle_eq h hs hedge]
  exact congrArg₂ (· ++ ·) (nodeStyleLines_reread h hs) hedges

theorem StylesStand.reread : d.reread.StylesStand where
  nodes := by
    intro node hn
    rw [values_reread] at hn
    obtain ⟨old, hold, rfl⟩ := List.mem_map.mp hn
    simpa only [readNode, readNodeStyle_eq h hs hold] using hs.nodes old hold
  edges := by
    intro edge he
    obtain ⟨i, hi, rfl⟩ := List.mem_mapIdx.mp he
    have hedge := (mem_links_iff.mp (List.getElem_mem hi)).1
    simpa only [readEdge, readEdgeStyle_eq h hs hedge] using hs.edges _ hedge

end Styles

section Cut

theorem isCut_rereadLink {link : Link} (hc : link.IsCut) (position : Nat) :
    (rereadLink position link).IsCut := by
  have hcontent : linkContent (rereadLink position link) = linkContent link := by
    have htext := linkText_rereadLink position link
    rwa [linkText_eq, linkText_eq, List.append_cancel_left_eq] at htext
  have harrow : shownArrow (readEdge position link) = shownArrow link.edge := by
    rw [shownArrow, shownArrow, shownLabel_readEdge]
    simp only [readEdge]
  rw [Link.IsCut] at hc ⊢
  rw [hcontent, hc]
  simp only [rereadLink, nodeText_readNode, harrow]

variable (h : d.IsWritable) (hc : ∀ link ∈ links d, link.IsCut)
include h hc

/-- Where every link is cut at its arrow, the nodes are read in the order of mention and the styles as
they are read. -/
theorem readChars_of_isCut :
    readChars (writeChars d) = .ok (.ok ⟨d.inMentionOrder.reread, []⟩) := by
  have hrefs := flatMap_refs h hc
  refine readChars_reread_of_foldl h (fun link hl => ?_) (foldl_styleNode_refs h ?_ fun k => ?_) ?_
  · rw [ofLine_link h hc hl]
    rfl
  · rw [hrefs, List.map_map]
    exact List.map_congr_left fun node _ => String.ofList_toList
  · rw [hrefs, find?_mentionedNodes h.keyed]
  · rw [edges_written h hc, reread, links_inMentionOrder h.keyed]

theorem isCut_reread : ∀ link ∈ links d.inMentionOrder.reread, link.IsCut := by
  intro link hl
  rw [links_reread, links_inMentionOrder h.keyed] at hl
  obtain ⟨i, hi, rfl⟩ := List.mem_mapIdx.mp hl
  exact isCut_rereadLink (hc _ (List.getElem_mem hi)) i

end Cut

section Places

variable {e : Document}

theorem map_id_eq_of_unplaced (h : d.unplaced = e.unplaced) :
    d.nodes.values.map Node.id = e.nodes.values.map Node.id := by
  have hid : ∀ d : Document, d.nodes.values.map Node.id = d.unplaced.nodes.values.map Node.id := by
    intro d
    rw [values_unplaced, List.map_map]
    rfl
  rw [hid, h, ← hid]

theorem nodeStyleLines_eq_of_unplaced (h : d.unplaced = e.unplaced) :
    d.nodeStyleLines = e.nodeStyleLines := by
  have hlines : ∀ d : Document, d.nodeStyleLines = d.unplaced.nodeStyleLines := by
    intro d
    rw [nodeStyleLines, nodeStyleLines, values_unplaced, List.filterMap_map]
    rfl
  rw [hlines, h, ← hlines]

theorem exists_readWith_write (placed : Bool) {reading : Reading}
    (h : readChars (writeChars d) = .ok (.ok reading)) :
    ∃ arranged, readWith placed (write d) = .ok (.ok arranged) ∧
      arranged.document.unplaced = reading.document.unplaced := by
  refine ⟨reading.arrangedIf placed, ?_, ?_⟩
  · rw [readWith_eq_map, write, String.toList_ofList, h]
    rfl
  · cases placed with
    | false => rfl
    | true => exact unplaced_arranged _ _

end Places

namespace SurvivesText

variable (h : d.SurvivesText)
include h

theorem isCut : ∀ link ∈ links d, link.IsCut :=
  fun _ hl => h.isLegible.isCut hl (h.arrowStands hl)

theorem stylesStand : d.StylesStand where
  nodes := fun node hn =>
    have hplain := (h.nodeStyles node hn).1
    (readNodeStyle_eq_iff hplain.isDeclarable).mp hplain.readNodeStyle
  edges := fun edge he =>
    have hplain := (h.edgeStyles edge he).1
    (readEdgeStyle_eq_iff hplain.isDeclarable).mp hplain.readEdgeStyle

/-- What is read from the text of a document has the nodes in the order in which the edges with both
ends mention them, then all others as they were. In its text only style lines of nodes change places,
and what is read from this text is written as the same text. -/
theorem readWith_write_twice (placed placedAgain : Bool) : ∃ first again,
    readWith placed (write d) = .ok (.ok first) ∧
      first.document.nodes.values.map Node.id =
        d.linkedIds.eraseDups ++ (d.nodes.values.map Node.id).filter (· ∉ d.linkedIds) ∧
      (∃ above below,
        (write d).toList = joinWith ['\n'] (above ++ d.nodeStyleLines ++ below) ∧
        (write first.document).toList =
          joinWith ['\n'] (above ++ first.document.nodeStyleLines ++ below) ∧
        first.document.nodeStyleLines.Perm d.nodeStyleLines) ∧
      readWith placedAgain (write first.document) = .ok (.ok again) ∧
        write again.document = write first.document := by
  have hw := h.isLegible.isWritable
  have hstand := h.stylesStand.inMentionOrder hw.keyed
  have hread := readChars_of_isCut hw h.isCut
  have hlines := textLines_reread hw.inMentionOrder hstand
  -- What is read is in the order of mention already, so the second reading finds nothing to move.
  have hwritable := isWritable_of_readChars hw hread
  have hagain := readChars_of_isCut hwritable (isCut_reread hw h.isCut)
  rw [inMentionOrder_reread hw.keyed] at hagain
  have hlinesAgain := textLines_reread hwritable (hstand.reread hw.inMentionOrder)
  obtain ⟨first, hfirst, hsame⟩ := exists_readWith_write placed hread
  obtain ⟨again, hsecond, hsameAgain⟩ := exists_readWith_write placedAgain hagain
  have hwrite := write_eq_of_unplaced hsame
  refine ⟨first, again, hfirst, ?_, ?_, by rw [hwrite, hsecond], ?_⟩
  · rw [map_id_eq_of_unplaced hsame, ← map_id_inMentionOrder hw.keyed, values_reread, List.map_map]
    exact List.map_congr_left fun node _ => by simp only [Function.comp_apply, readNode]
  · obtain ⟨above, below, hown, hother⟩ := exists_frame_inMentionOrder hw.keyed
    have hstyles : first.document.nodeStyleLines = d.inMentionOrder.nodeStyleLines :=
      (nodeStyleLines_eq_of_unplaced hsame).trans (nodeStyleLines_reread hw.inMentionOrder hstand)
    refine ⟨above, below, ?_, ?_, ?_⟩
    · rw [write, String.toList_ofList, writeChars, hown]
    · rw [hwrite, write, String.toList_ofList, writeChars, hlines, hother, hstyles]
    · rw [hstyles]
      exact (perm_values_inMentionOrder hw.keyed).filterMap _
  · rw [hwrite, write_eq_of_unplaced hsameAgain, write, write, writeChars, writeChars, hlinesAgain]

end SurvivesText

end Document

/-- A styled node that no edge names stands before the nodes that one does; the last edge has no
target. -/
def detachedDocument : Document where
  kind := .flowchart
  direction := .topDown
  nodes := .ofValues Node.id
    [⟨"C", "C", .circle, { NodeStyle.standard with background := "red" }, none⟩,
     ⟨"A", "A", .rectangle, { NodeStyle.standard with background := "blue" }, none⟩,
     ⟨"B", "B", .rectangle, .standard, none⟩]
  edges :=
    [⟨"first", "A", "B", some "yes", .plain, .standard⟩,
     ⟨"second", "C", "gone", none, .plain, .standard⟩]

theorem survivesText_detachedDocument : detachedDocument.SurvivesText where
  flow := by decide
  keyed := by decide +kernel
  ids := by decide +kernel
  labels := by decide +kernel
  edgeLabels := by decide +kernel
  nodeStyles := by decide +kernel
  edgeStyles := by decide +kernel
  positions := by decide +kernel

/-- The node of its own comes last, its style line changes places once and stays there. -/
theorem readWith_write_twice_detachedDocument : detachedDocument.SurvivesText ∧ ∃ first again,
    readWith true (write detachedDocument) = .ok (.ok first) ∧
      first.document.nodes.values.map Node.id = ["A", "B", "C"] ∧
      write first.document ≠ write detachedDocument ∧
      readWith true (write first.document) = .ok (.ok again) ∧
      write again.document = write first.document := by
  obtain ⟨first, again, hfirst, hids, -, hsecond, hwrite⟩ :=
    survivesText_detachedDocument.readWith_write_twice true true
  refine ⟨survivesText_detachedDocument, first, again, hfirst, ?_, ?_, hsecond, hwrite⟩
  · rw [hids]
    decide +kernel
  · have htest : testReading (readWith true (write detachedDocument))
        (fun reading => write reading.document ≠ write detachedDocument) = true := by
      decide +kernel
    obtain ⟨reading, hread, hne⟩ := exists_of_testReading htest
    rw [hfirst, Except.ok.injEq, Except.ok.injEq] at hread
    rw [hread]
    exact of_decide_eq_true hne

end Flowchart
