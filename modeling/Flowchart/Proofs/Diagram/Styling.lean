import Flowchart.Proofs.Diagram.BodyLines
import Mathlib.Data.List.Forall2

/-! Styles that a text declares: the last usable declaration decides each field of a node or an edge,
over all style lines for it. -/
namespace Flowchart

open Diagram
open Declaration (lastUsable nodePatch edgePatch readSize? readWeight? readFlag)

/-- Each field is what the last usable declaration of its property says, or the standard value. -/
structure NodeStyle.Follows (style : NodeStyle) (ds : List Declaration) : Prop where
  background : style.background =
    (lastUsable "fill".toList (some <| String.ofList ·) ds).getD standard.background
  borderColor : style.borderColor =
    (lastUsable "stroke".toList (some <| String.ofList ·) ds).getD standard.borderColor
  borderWidth : style.borderWidth =
    (lastUsable "stroke-width".toList readSize? ds).getD standard.borderWidth
  textColor : style.textColor =
    (lastUsable "color".toList (some <| String.ofList ·) ds).getD standard.textColor
  fontSize : style.fontSize = (lastUsable "font-size".toList readSize? ds).getD standard.fontSize
  fontWeight : style.fontWeight =
    (lastUsable "font-weight".toList readWeight? ds).getD standard.fontWeight

structure EdgeStyle.Follows (style : EdgeStyle) (ds : List Declaration) : Prop where
  strokeColor : style.strokeColor =
    (lastUsable "stroke".toList (some <| String.ofList ·) ds).getD standard.strokeColor
  strokeWidth : style.strokeWidth =
    (lastUsable "stroke-width".toList readSize? ds).getD standard.strokeWidth
  dashes : style.dashes = lastUsable "stroke-dasharray".toList (some <| String.ofList ·) ds
  animated : style.animated =
    (lastUsable "animated".toList (some <| readFlag ·) ds).getD standard.animated

section Patches

variable {ds : List Declaration}

theorem NodeStyle.follows_standard : NodeStyle.standard.Follows [] :=
  ⟨rfl, rfl, rfl, rfl, rfl, rfl⟩

theorem EdgeStyle.follows_standard : EdgeStyle.standard.Follows [] :=
  ⟨rfl, rfl, rfl, rfl⟩

theorem NodeStyle.Follows.patched {style : NodeStyle} (h : style.Follows ds)
    (es : List Declaration) : (style.patched (nodePatch es)).Follows (ds ++ es) where
  background := by
    rw [NodeStyle.patched, h.background]
    exact NodeStylePatch.isField_background.getD_foldl_append rfl ds es _
  borderColor := by
    rw [NodeStyle.patched, h.borderColor]
    exact NodeStylePatch.isField_borderColor.getD_foldl_append rfl ds es _
  borderWidth := by
    rw [NodeStyle.patched, h.borderWidth]
    exact NodeStylePatch.isField_borderWidth.getD_foldl_append rfl ds es _
  textColor := by
    rw [NodeStyle.patched, h.textColor]
    exact NodeStylePatch.isField_textColor.getD_foldl_append rfl ds es _
  fontSize := by
    rw [NodeStyle.patched, h.fontSize]
    exact NodeStylePatch.isField_fontSize.getD_foldl_append rfl ds es _
  fontWeight := by
    rw [NodeStyle.patched, h.fontWeight]
    exact NodeStylePatch.isField_fontWeight.getD_foldl_append rfl ds es _

theorem EdgeStyle.Follows.patched {style : EdgeStyle} (h : style.Follows ds)
    (es : List Declaration) : (style.patched (edgePatch es)).Follows (ds ++ es) where
  strokeColor := by
    rw [EdgeStyle.patched, h.strokeColor]
    exact EdgeStylePatch.isField_strokeColor.getD_foldl_append rfl ds es _
  strokeWidth := by
    rw [EdgeStyle.patched, h.strokeWidth]
    exact EdgeStylePatch.isField_strokeWidth.getD_foldl_append rfl ds es _
  dashes := by
    rw [EdgeStyle.patched, h.dashes, Declaration.lastUsable_append, edgePatch,
      EdgeStylePatch.isField_dashes.get_foldl, Option.or_none]
  animated := by
    rw [EdgeStyle.patched, h.animated]
    exact EdgeStylePatch.isField_animated.getD_foldl_append rfl ds es _

theorem NodeStyle.Follows.foldl_styled {node : Node} (h : node.style.Follows ds)
    (styles : List NodeStyleLine) :
    (styles.foldl (fun node style => Draft.styled style node) node).style.Follows
      (ds ++ styles.flatMap (·.declarations)) := by
  induction styles generalizing ds node with
  | nil => simpa using h
  | cons style styles ih =>
    rw [List.foldl_cons, List.flatMap_cons, ← List.append_assoc]
    have hstyled : (Draft.styled style node).style.Follows (ds ++ style.declarations) :=
      h.patched style.declarations
    exact ih hstyled

theorem EdgeStyle.Follows.foldl_styledEdge {edge : Edge} (h : edge.style.Follows ds)
    (styles : List EdgeStyleLine) :
    (styles.foldl (fun edge style => Draft.styledEdge style edge) edge).style.Follows
      (ds ++ styles.flatMap (·.declarations)) := by
  induction styles generalizing ds edge with
  | nil => simpa using h
  | cons style styles ih =>
    rw [List.foldl_cons, List.flatMap_cons, ← List.append_assoc]
    have hstyled : (Draft.styledEdge style edge).style.Follows (ds ++ style.declarations) :=
      h.patched style.declarations
    exact ih hstyled

end Patches

def EdgeStyleLine.isFor (style : EdgeStyleLine) (position : Nat) : Bool :=
  match style.positions with
  | none => true
  | some positions => positions.contains position

theorem EdgeStyleLine.mem_positionsOf_iff {style : EdgeStyleLine} {i edgeCount : Nat}
    (hi : i < edgeCount) : i ∈ Draft.positionsOf style edgeCount ↔ style.isFor i = true := by
  unfold Draft.positionsOf isFor
  cases style.positions <;> simp [hi]

/-- The line without the positions at which there is no edge. -/
def EdgeStyleLine.within (edgeCount : Nat) (style : EdgeStyleLine) : EdgeStyleLine :=
  { style with positions := style.positions.map (·.filter (· < edgeCount)) }

def Issue.WarnsOfStray (issue : Issue) (edgeCount : Nat) (stray : Nat × Nat) : Prop :=
  issue.Warns stray.1 ("linkStyle index " ++ toString stray.2 ++ " is out of range (" ++
    toString edgeCount ++ " edges)")

namespace Diagram

namespace Draft

variable {style : EdgeStyleLine} {edges : List Edge}

theorem mem_positionsOf_within_iff {i edgeCount : Nat} (hi : i < edgeCount) :
    i ∈ positionsOf (style.within edgeCount) edgeCount ↔ i ∈ positionsOf style edgeCount := by
  unfold positionsOf EdgeStyleLine.within
  cases style.positions <;> simp [hi]

theorem styleEdges_within : styleEdges edges (style.within edges.length) = styleEdges edges style := by
  apply List.ext_getElem?
  intro i
  rw [getElem?_styleEdges, getElem?_styleEdges]
  cases he : edges[i]? with
  | none => rfl
  | some edge =>
    have hi := (List.getElem?_eq_some_iff.mp he).1
    simp only [mem_positionsOf_within_iff hi]
    rfl

theorem foldl_styleEdges_within (styles : List EdgeStyleLine) (edges : List Edge) :
    (styles.map (·.within edges.length)).foldl styleEdges edges =
      styles.foldl styleEdges edges := by
  induction styles generalizing edges with
  | nil => rfl
  | cons style styles ih =>
    rw [List.map_cons, List.foldl_cons, List.foldl_cons, styleEdges_within]
    simpa only [length_styleEdges] using ih (styleEdges edges style)

def withoutStrays (draft : Draft) : Draft :=
  { draft with edgeStyles :=
      draft.edgeStyles.map fun line => (line.1, line.2.within draft.edges.length) }

theorem document_finish_withoutStrays (draft : Draft) (kind : DiagramKind) (direction : Direction) :
    (draft.withoutStrays.finish kind direction).document =
      (draft.finish kind direction).document := by
  have hedges := foldl_styleEdges_within (draft.edgeStyles.map (·.2)) draft.edges
  rw [List.map_map] at hedges
  unfold finish withoutStrays
  simp only [List.map_map, ← hedges]
  rfl

end Draft

def declarationsFor (text : String) (id : String) : List Declaration :=
  (((bodyLines text).filterMap fun line => NodeStyleLine.read? line.content).filter
    (String.ofList ·.id = id)).flatMap (·.declarations)

def declarationsAt (text : String) (position : Nat) : List Declaration :=
  (((bodyLines text).filterMap fun line => EdgeStyleLine.accepted? line.content).filter
    (·.isFor position)).flatMap (·.declarations)

/-- The positions at which there is no edge, as they are named, each with the number of its line. -/
def strayPositions (text : String) (edgeCount : Nat) : List (Nat × Nat) :=
  (bodyLines text).flatMap fun line =>
    ((EdgeStyleLine.accepted? line.content).toList.flatMap (Draft.strays edgeCount)).map
      (line.number, ·)

variable {placed : Bool} {text : String} {reading : Reading}

theorem nodeStyles_bodyStatements (text : String) :
    (bodyStatements text).filterMap Statement.nodeStyle? =
      (bodyLines text).filterMap fun line => NodeStyleLine.read? line.content := by
  simp [bodyStatements, List.filterMap_map, Statement.nodeStyle?_ofLine]

theorem edgeStyles_bodyStatements (text : String) :
    (bodyStatements text).filterMap Statement.edgeStyle? =
      (bodyLines text).filterMap fun line => EdgeStyleLine.accepted? line.content := by
  simp [bodyStatements, List.filterMap_map, Statement.edgeStyle?_ofLine]

theorem forall₂_strayPositions (text : String) (edgeCount : Nat) :
    List.Forall₂ (fun stray issue => Issue.WarnsOfStray issue edgeCount stray)
      (strayPositions text edgeCount)
        ((bodyLines text).flatMap (Draft.rangeIssues edgeCount)) := by
  have hissues : (bodyLines text).flatMap (Draft.rangeIssues edgeCount) =
      (strayPositions text edgeCount).map fun stray =>
        .positionOutOfRange stray.1 stray.2 edgeCount := by
    rw [strayPositions, List.map_flatMap]
    refine List.flatMap_congr fun line _ => ?_
    rw [Draft.rangeIssues, Statement.edgeStyle?_ofLine, List.map_map, List.map_flatMap]
    rfl
  rw [hissues, List.forall₂_map_right_iff, List.forall₂_same]
  exact fun stray _ => ⟨rfl, rfl, rfl⟩

theorem follows_of_node? (h : readWith placed text = .ok (.ok reading)) {id : String} {node : Node}
    (hn : reading.document.node? id = some node) :
    node.style.Follows (declarationsFor text id) := by
  have hstandard : ∀ description,
      (Draft.describedAs description (Node.stub id)).style.Follows [] := by
    rintro (- | description) <;> exact NodeStyle.follows_standard
  have hstyle := congrArg Node.style (eq_of_node?_readWith h hn)
  dsimp only at hstyle
  rw [hstyle, nodeStyles_bodyStatements, declarationsFor]
  simpa only [List.nil_append] using (hstandard _).foldl_styled _

theorem follows_of_getElem? (h : readWith placed text = .ok (.ok reading)) {i : Nat} {edge : Edge}
    (he : reading.document.edges[i]? = some edge) :
    edge.style.Follows (declarationsAt text i) := by
  obtain ⟨kind, direction, rfl⟩ := exists_finish_of_readWith h
  rw [edges_arrangedIf, Draft.edges_finish rfl, ← bodyStatements, edgeStyles_bodyStatements,
    Draft.getElem?_foldl_styleEdges, Option.map_eq_some_iff] at he
  obtain ⟨new, hnew, rfl⟩ := he
  have hstandard : new.style.Follows [] := by
    rw [Draft.newEdges, List.getElem?_mapIdx, Option.map_eq_some_iff] at hnew
    obtain ⟨found, -, rfl⟩ := hnew
    exact EdgeStyle.follows_standard
  have hi := (List.getElem?_eq_some_iff.mp hnew).1
  have hfor : ∀ style : EdgeStyleLine,
      decide (i ∈ Draft.positionsOf style (Draft.newEdges 0
        ((bodyStatements text).filterMap Statement.edge?)).length) = style.isFor i := by
    intro style
    rw [Bool.eq_iff_iff, decide_eq_true_iff, EdgeStyleLine.mem_positionsOf_iff hi]
  rw [declarationsAt]
  simpa only [hfor, List.nil_append] using hstandard.foldl_styledEdge _

/-- Every field of every style is that of the last usable declaration for it. Every stray position is
reported once, after the skipped lines, and the document is the same without it. -/
theorem follows_of_readWith (h : readWith placed text = .ok (.ok reading)) :
    (∀ (id : String) (node : Node), reading.document.node? id = some node →
      node.style.Follows (declarationsFor text id)) ∧
    (∀ (i : Nat) (edge : Edge), reading.document.edges[i]? = some edge →
      edge.style.Follows (declarationsAt text i)) ∧
    (∃ skips warnings, reading.issues = skips ++ warnings ∧
      (∀ issue ∈ skips, ∃ number reason content, issue = .skippedLine number reason content) ∧
      List.Forall₂ (fun stray issue => issue.WarnsOfStray reading.document.edges.length stray)
        (strayPositions text reading.document.edges.length) warnings) ∧
    ∃ (draft : Draft) (kind : DiagramKind) (direction : Direction),
      draft = (bodyLines text).foldl Draft.add .empty ∧
        (draft.finish kind direction).arrangedIf placed = reading ∧
          ((draft.withoutStrays.finish kind direction).arrangedIf placed).document =
            reading.document := by
  refine ⟨fun id node => follows_of_node? h, fun i edge => follows_of_getElem? h,
    ⟨_, _, issues_of_readWith h, fun issue hi => ?_, forall₂_strayPositions text _⟩, ?_⟩
  · obtain ⟨line, -, hskip⟩ := List.mem_filterMap.mp hi
    obtain ⟨reason, -, rfl⟩ := Option.map_eq_some_iff.mp hskip
    exact ⟨_, _, _, rfl⟩
  · obtain ⟨kind, direction, rfl⟩ := exists_finish_of_readWith h
    exact ⟨_, kind, direction, rfl, rfl,
      document_arrangedIf_congr (Draft.document_finish_withoutStrays _ kind direction)⟩

/-- Declarations for a node in two lines, and for an edge that there is not, named twice. -/
def stylingText : String :=
  "graph LR\nlinkStyle 5,5 stroke:red\nA --> B\nstyle A fill:red\nstyle A Fill:blue"

/-- The later color counts, whatever the case of its name; position 5 is reported twice. -/
theorem follows_stylingText : ∃ reading, readWith false stylingText = .ok (.ok reading) ∧
    (∀ (id : String) (node : Node), reading.document.node? id = some node →
      node.style.Follows (declarationsFor stylingText id)) ∧
    reading.document.nodes.values.map (·.style.background) =
      ["blue", NodeStyle.standard.background] ∧ reading.issues.length = 2 := by
  have htest : testReading (readWith false stylingText) (fun reading =>
      reading.document.nodes.values.map (·.style.background) =
        ["blue", NodeStyle.standard.background] ∧ reading.issues.length = 2) = true := by
    decide +kernel
  obtain ⟨reading, hread, hresult⟩ := exists_of_testReading htest
  exact ⟨reading, hread, (follows_of_readWith hread).1, of_decide_eq_true hresult⟩

end Diagram
end Flowchart
