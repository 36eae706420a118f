import Flowchart.Diagram.Reader
import Flowchart.Proofs.Graph.Keyed
import Mathlib.Data.List.Induction

/-! What the lines of a text add up to, read off their statements: each node is known from the
references and style lines that name it, each edge from its own line and the style lines for its
position. -/
namespace Flowchart

namespace Statement

def refs : Statement → List NodeRef
  | .node ref => [ref]
  | .edge source _ target => [source, target]
  | _ => []

def edge? : Statement → Option (NodeRef × Arrow × NodeRef)
  | .edge source arrow target => some (source, arrow, target)
  | _ => none

def nodeStyle? : Statement → Option NodeStyleLine
  | .nodeStyle style => some style
  | _ => none

def edgeStyle? : Statement → Option EdgeStyleLine
  | .edgeStyle style => some style
  | _ => none

def skipped? : Statement → Option SkipReason
  | .skipped reason => some reason
  | _ => none

end Statement

namespace Diagram.Draft

variable {m : Keyed Node} {id : String}

def describedAs (description : Option (NodeShape × List Char)) (node : Node) : Node :=
  match description with
  | none => node
  | some (shape, label) => { node with label := String.ofList label, shape := shape }

def described (ref : NodeRef) (node : Node) : Node :=
  describedAs ref.described node

def lastDescription (refs : List NodeRef) : Option (NodeShape × List Char) :=
  refs.reverse.findSome? NodeRef.described

def styled (style : NodeStyleLine) (node : Node) : Node :=
  { node with style := node.style.patched (Declaration.nodePatch style.declarations) }

section Nodes

theorem find?_ensure (m : Keyed Node) (id k : String) :
    (ensure m id).find? k = if k = id then some ((m.find? k).getD (.stub k)) else m.find? k := by
  unfold ensure
  by_cases hk : k = id
  · subst hk
    rw [if_pos rfl]
    split_ifs with hc
    · obtain ⟨v, hv⟩ := Option.isSome_iff_exists.mp
        (Keyed.isSome_find?_iff.mpr (Keyed.contains_iff.mp hc))
      rw [hv, Option.getD_some]
    · have hnone : m.find? k = none := by
        rw [Keyed.find?_eq_none_iff]
        exact fun hk => hc (Keyed.contains_iff.mpr hk)
      rw [Keyed.find?_insert, if_pos rfl, hnone, Option.getD_none]
  · rw [if_neg hk]
    split_ifs
    · rfl
    · rw [Keyed.find?_insert, if_neg (Ne.symm hk)]

theorem find?_refer (m : Keyed Node) (ref : NodeRef) (k : String) :
    (refer m ref).find? k =
      if k = String.ofList ref.id then some (described ref ((m.find? k).getD (.stub k)))
      else m.find? k := by
  unfold refer described describedAs
  cases ref.described with
  | none => exact find?_ensure m _ k
  | some d =>
    simp only [Keyed.find?_modify, find?_ensure]
    split_ifs <;> rfl

theorem find?_styleNode (m : Keyed Node) (style : NodeStyleLine) (k : String) :
    (styleNode m style).find? k =
      if k = String.ofList style.id then some (styled style ((m.find? k).getD (.stub k)))
      else m.find? k := by
  unfold styleNode
  simp only [Keyed.find?_modify, find?_ensure]
  split_ifs <;> rfl

theorem keys_ensure (m : Keyed Node) (id : String) : (ensure m id).keys = Keyed.addKey m.keys id := by
  by_cases hk : id ∈ m.keys
  · rw [ensure, if_pos (Keyed.contains_iff.mpr hk), Keyed.addKey, if_pos hk]
  · rw [ensure, if_neg (fun hc => hk (Keyed.contains_iff.mp hc)), Keyed.keys_insert, Keyed.addKey]

theorem keys_refer (m : Keyed Node) (ref : NodeRef) :
    (refer m ref).keys = Keyed.addKey m.keys (String.ofList ref.id) := by
  unfold refer
  cases ref.described <;> simp [keys_ensure]

theorem keys_styleNode (m : Keyed Node) (style : NodeStyleLine) :
    (styleNode m style).keys = Keyed.addKey m.keys (String.ofList style.id) := by
  simp [styleNode, keys_ensure]

/-- Steps that each touch the node of one id: what becomes of an id depends only on the steps for
it. -/
theorem find?_foldl {σ : Type} {step : Keyed Node → σ → Keyed Node} {name : σ → String}
    {f : σ → Node → Node}
    (h : ∀ m s k, (step m s).find? k =
      if k = name s then some (f s ((m.find? k).getD (.stub k))) else m.find? k)
    (l : List σ) (m : Keyed Node) (k : String) :
    (l.foldl step m).find? k =
      (l.filter (name · = k)).foldl (fun o s => some (f s (o.getD (.stub k)))) (m.find? k) := by
  induction l generalizing m with
  | nil => rfl
  | cons s l ih =>
    rw [List.foldl_cons, ih, h]
    by_cases hk : name s = k
    · rw [if_pos hk.symm, List.filter_cons_of_pos (by simpa using hk), List.foldl_cons]
    · rw [if_neg (Ne.symm hk), List.filter_cons_of_neg (by simpa using hk)]

theorem getD_find?_foldl {σ : Type} {step : Keyed Node → σ → Keyed Node} {name : σ → String}
    {f : σ → Node → Node}
    (h : ∀ m s k, (step m s).find? k =
      if k = name s then some (f s ((m.find? k).getD (.stub k))) else m.find? k)
    (l : List σ) (m : Keyed Node) (k : String) :
    ((l.foldl step m).find? k).getD (.stub k) =
      (l.filter (name · = k)).foldl (fun n s => f s n) ((m.find? k).getD (.stub k)) := by
  rw [find?_foldl h]
  generalize m.find? k = o
  induction l.filter (name · = k) generalizing o with
  | nil => rfl
  | cons s l ih => rw [List.foldl_cons, ih, List.foldl_cons, Option.getD_some]

theorem of_find?_foldl {σ : Type} {step : Keyed Node → σ → Keyed Node} {name : σ → String}
    {f : σ → Node → Node}
    (h : ∀ m s k, (step m s).find? k =
      if k = name s then some (f s ((m.find? k).getD (.stub k))) else m.find? k)
    {P : Node → Prop} {k : String} {l : List σ}
    (hstep : ∀ s ∈ l, name s = k → P (.stub k) ∧ ∀ node, P node → P (f s node)) {m : Keyed Node}
    (hm : ∀ node, m.find? k = some node → P node) {node : Node}
    (hnode : (l.foldl step m).find? k = some node) : P node := by
  induction l generalizing m with
  | nil => exact hm node hnode
  | cons s l ih =>
    refine ih (fun t ht => hstep t (List.mem_cons_of_mem _ ht)) (fun n hn => ?_) hnode
    rw [h] at hn
    split_ifs at hn with hk
    · obtain ⟨hstub, hkept⟩ := hstep s (by simp) hk.symm
      cases hn
      apply hkept
      cases hold : m.find? k with
      | none => exact hstub
      | some old => exact hm old hold
    · exact hm n hn

theorem find?_foldl_refer (refs : List NodeRef) (m : Keyed Node) (k : String) :
    (refs.foldl refer m).find? k =
      (refs.filter (String.ofList ·.id = k)).foldl
        (fun o ref => some (described ref (o.getD (.stub k)))) (m.find? k) :=
  find?_foldl find?_refer refs m k

theorem foldl_described (refs : List NodeRef) (node : Node) :
    refs.foldl (fun n ref => described ref n) node = describedAs (lastDescription refs) node := by
  induction refs using List.reverseRecOn with
  | nil => rfl
  | append_singleton refs ref ih =>
    rw [List.foldl_append, List.foldl_cons, List.foldl_nil, ih, described, lastDescription,
      lastDescription, List.reverse_append, List.reverse_singleton, List.singleton_append,
      List.findSome?_cons]
    cases ref.described with
    | some d => cases List.findSome? NodeRef.described refs.reverse <;> rfl
    | none => rfl

theorem getD_find?_foldl_refer (refs : List NodeRef) (k : String) :
    ((refs.foldl refer .empty).find? k).getD (.stub k) =
      describedAs (lastDescription (refs.filter (String.ofList ·.id = k))) (.stub k) := by
  rw [getD_find?_foldl find?_refer, Keyed.find?_empty, Option.getD_none, foldl_described]

theorem find?_foldl_refer_empty (refs : List NodeRef) (k : String)
    (hk : k ∈ refs.map (String.ofList ·.id)) : (refs.foldl refer .empty).find? k =
      some (describedAs (lastDescription (refs.filter (String.ofList ·.id = k))) (.stub k)) := by
  obtain ⟨node, hnode⟩ : ∃ node, (refs.foldl refer .empty).find? k = some node := by
    rw [← Option.isSome_iff_exists, Keyed.isSome_find?_iff, Keyed.keys_foldl keys_refer,
      Keyed.foldl_addKey]
    simpa using hk
  rw [← getD_find?_foldl_refer, hnode, Option.getD_some]

theorem find?_foldl_styleNode (styles : List NodeStyleLine) (m : Keyed Node) (k : String) :
    (styles.foldl styleNode m).find? k =
      (styles.filter (String.ofList ·.id = k)).foldl
        (fun o style => some (styled style (o.getD (.stub k)))) (m.find? k) :=
  find?_foldl find?_styleNode styles m k

end Nodes

section Edges

theorem patched_patched (style : EdgeStyle) (patch : EdgeStylePatch) :
    (style.patched patch).patched patch = style.patched patch := by
  obtain ⟨color, width, dashes, animated⟩ := patch
  cases color <;> cases width <;> cases dashes <;> cases animated <;> rfl

def styledEdge (style : EdgeStyleLine) (edge : Edge) : Edge :=
  { edge with style := edge.style.patched (Declaration.edgePatch style.declarations) }

private theorem getElem?_foldl_styleEdgeAt (patch : EdgeStylePatch) (positions : List Nat)
    (edges : List Edge) (i : Nat) :
    (positions.foldl (styleEdgeAt · patch ·) edges)[i]? =
      edges[i]?.map fun e =>
        if i ∈ positions then { e with style := e.style.patched patch } else e := by
  induction positions generalizing edges with
  | nil => simp
  | cons p positions ih =>
    rw [List.foldl_cons, ih, styleEdgeAt, List.getElem?_modify]
    cases edges[i]? with
    | none => rfl
    | some e =>
      by_cases hp : p = i
      · subst hp
        by_cases hi : p ∈ positions <;> simp [hi, patched_patched]
      · by_cases hi : i ∈ positions <;> simp [hi, hp, Ne.symm hp]

theorem getElem?_styleEdges (edges : List Edge) (style : EdgeStyleLine) (i : Nat) :
    (styleEdges edges style)[i]? =
      edges[i]?.map fun e =>
        if i ∈ positionsOf style edges.length then styledEdge style e else e :=
  getElem?_foldl_styleEdgeAt _ _ edges i

theorem length_styleEdges (edges : List Edge) (style : EdgeStyleLine) :
    (styleEdges edges style).length = edges.length := by
  have hfold : ∀ positions : List Nat, ∀ edges : List Edge,
      (positions.foldl (styleEdgeAt · (Declaration.edgePatch style.declarations) ·) edges).length =
        edges.length := by
    intro positions
    induction positions with
    | nil => exact fun _ => rfl
    | cons p positions ih =>
      intro edges
      rw [List.foldl_cons, ih, styleEdgeAt, List.length_modify]
  exact hfold _ edges

theorem getElem?_foldl_styleEdges (styles : List EdgeStyleLine) (edges : List Edge) (i : Nat) :
    (styles.foldl styleEdges edges)[i]? =
      edges[i]?.map fun e =>
        (styles.filter (i ∈ positionsOf · edges.length)).foldl (fun e s => styledEdge s e) e := by
  induction styles generalizing edges with
  | nil => simp
  | cons s styles ih =>
    rw [List.foldl_cons, ih, getElem?_styleEdges, length_styleEdges, Option.map_map]
    congr 1
    funext e
    by_cases hi : i ∈ positionsOf s edges.length
    · simp [hi]
    · simp [hi]

theorem map_foldl_styleEdges {α : Type} {f : Edge → α}
    (hf : ∀ e style, f { e with style := style } = f e) (styles : List EdgeStyleLine)
    (edges : List Edge) : (styles.foldl styleEdges edges).map f = edges.map f := by
  have hfold : ∀ (styles : List EdgeStyleLine) e,
      f (styles.foldl (fun e s => styledEdge s e) e) = f e := by
    intro styles
    induction styles with
    | nil => exact fun _ => rfl
    | cons s styles ih =>
      intro e
      rw [List.foldl_cons, ih, styledEdge, hf]
  apply List.ext_getElem?
  intro i
  rw [List.getElem?_map, List.getElem?_map, getElem?_foldl_styleEdges, Option.map_map]
  congr 1
  funext e
  exact hfold _ e

end Edges

section Lines

variable (lines : List NumberedLine) (draft : Draft)

theorem nodes_foldl_add :
    (lines.foldl add draft).nodes =
      (lines.flatMap fun line => (Statement.ofLine line.content).refs).foldl refer draft.nodes := by
  induction lines generalizing draft with
  | nil => rfl
  | cons line lines ih =>
    rw [List.foldl_cons, ih, List.flatMap_cons, List.foldl_append]
    congr 1
    unfold add
    cases Statement.ofLine line.content <;> rfl

/-- The edge that the statement of the line at a position among edges is about. -/
def newEdges (first : Nat) (found : List (NodeRef × Arrow × NodeRef)) : List Edge :=
  found.mapIdx fun i e => newEdge (first + i) e.1 e.2.1 e.2.2

theorem map_newEdges {α : Type} {f : Edge → α} {g : NodeRef × Arrow × NodeRef → α}
    (hf : ∀ i e, f (newEdge i e.1 e.2.1 e.2.2) = g e) (first : Nat)
    (found : List (NodeRef × Arrow × NodeRef)) : (newEdges first found).map f = found.map g := by
  apply List.ext_getElem?
  intro i
  rw [newEdges, List.getElem?_map, List.getElem?_mapIdx, List.getElem?_map, Option.map_map]
  congr 1
  funext e
  exact hf _ e

theorem edges_foldl_add :
    (lines.foldl add draft).edges =
      draft.edges ++ newEdges draft.edges.length
        (lines.filterMap fun line => (Statement.ofLine line.content).edge?) := by
  induction lines generalizing draft with
  | nil => simp [newEdges]
  | cons line lines ih =>
    rw [List.foldl_cons, ih]
    unfold add
    cases hs : Statement.ofLine line.content with
    | edge source arrow target =>
      have hnumber : ∀ i, draft.edges.length + 1 + i = draft.edges.length + (i + 1) := by omega
      simp only [List.filterMap_cons, hs, Statement.edge?, newEdges, List.mapIdx_cons,
        List.length_append, List.length_singleton, List.append_assoc, List.singleton_append,
        Nat.add_zero, hnumber]
    | _ => simp [hs, Statement.edge?]

theorem foldl_add_eq_append {α : Type} (part : Draft → List α) (read : NumberedLine → Option α)
    (hadd : ∀ draft line, part (add draft line) = part draft ++ (read line).toList) :
    part (lines.foldl add draft) = part draft ++ lines.filterMap read := by
  induction lines generalizing draft with
  | nil => simp
  | cons line lines ih =>
    rw [List.foldl_cons, ih, hadd, List.append_assoc]
    cases hread : read line <;> simp [hread]

theorem nodeStyles_foldl_add :
    (lines.foldl add draft).nodeStyles =
      draft.nodeStyles ++
        lines.filterMap fun line => (Statement.ofLine line.content).nodeStyle? := by
  refine foldl_add_eq_append lines draft Draft.nodeStyles _ fun draft line => ?_
  unfold add
  cases Statement.ofLine line.content <;> simp [Statement.nodeStyle?]

theorem edgeStyles_foldl_add :
    (lines.foldl add draft).edgeStyles =
      draft.edgeStyles ++ lines.filterMap fun line =>
        (Statement.ofLine line.content).edgeStyle?.map (line.number, ·) := by
  refine foldl_add_eq_append lines draft Draft.edgeStyles _ fun draft line => ?_
  unfold add
  cases Statement.ofLine line.content <;> simp [Statement.edgeStyle?]

theorem issues_foldl_add :
    (lines.foldl add draft).issues =
      draft.issues ++ lines.filterMap fun line =>
        (Statement.ofLine line.content).skipped?.map fun reason =>
          .skippedLine line.number reason (String.ofList line.content) := by
  refine foldl_add_eq_append lines draft Draft.issues _ fun draft line => ?_
  unfold add
  cases Statement.ofLine line.content <;> simp [Statement.skipped?]

end Lines

section Reports

/-- The positions at which there is no edge, as often as they are named. -/
def strays (edgeCount : Nat) (style : EdgeStyleLine) : List Nat :=
  (style.positions.getD []).filter (edgeCount ≤ ·)

theorem outOfRange_eq (edgeCount number : Nat) (style : EdgeStyleLine) :
    outOfRange edgeCount (number, style) =
      (strays edgeCount style).map (.positionOutOfRange number · edgeCount) := by
  unfold outOfRange strays positionsOf
  cases style.positions with
  | some positions => rfl
  | none =>
    have hrange : (List.range edgeCount).filter (edgeCount ≤ ·) = [] := by
      rw [List.filter_eq_nil_iff]
      intro p hp
      simpa using hp
    simp [hrange]

def skipIssue? (line : NumberedLine) : Option Issue :=
  (Statement.ofLine line.content).skipped?.map fun reason =>
    .skippedLine line.number reason (String.ofList line.content)

def rangeIssues (edgeCount : Nat) (line : NumberedLine) : List Issue :=
  (Statement.ofLine line.content).edgeStyle?.toList.flatMap fun style =>
    (strays edgeCount style).map (.positionOutOfRange line.number · edgeCount)

end Reports

section Finish

variable {lines : List NumberedLine} {statements : List Statement}
  (h : lines.map (fun line => Statement.ofLine line.content) = statements)
  (kind : DiagramKind) (direction : Direction)
include h

theorem nodes_finish :
    ((lines.foldl add empty).finish kind direction).document.nodes =
      (statements.filterMap Statement.nodeStyle?).foldl styleNode
        ((statements.flatMap Statement.refs).foldl refer .empty) := by
  rw [finish, nodes_foldl_add, nodeStyles_foldl_add, ← h, List.flatMap_map, List.filterMap_map]
  rfl

/-- A node is what the last description and the style lines for its id make of the stand-in. -/
theorem getD_find?_finish (k : String) :
    (((lines.foldl add empty).finish kind direction).document.nodes.find? k).getD (.stub k) =
      ((statements.filterMap Statement.nodeStyle?).filter (String.ofList ·.id = k)).foldl
        (fun node style => styled style node)
        (describedAs (lastDescription
          ((statements.flatMap Statement.refs).filter (String.ofList ·.id = k))) (.stub k)) := by
  rw [nodes_finish h, getD_find?_foldl find?_styleNode, getD_find?_foldl_refer]

/-- Nodes come in the order in which references first name them, then those that only style lines
name. -/
theorem keys_finish : ((lines.foldl add empty).finish kind direction).document.nodes.keys =
    ((statements.flatMap Statement.refs).map (String.ofList ·.id)).eraseDups ++
      (((statements.filterMap Statement.nodeStyle?).map (String.ofList ·.id)).filter
        (· ∉ (statements.flatMap Statement.refs).map (String.ofList ·.id))).eraseDups := by
  rw [nodes_finish h, Keyed.keys_foldl keys_styleNode, Keyed.keys_foldl keys_refer,
    Keyed.keys_empty, Keyed.foldl_addKey_nil, Keyed.foldl_addKey]
  simp only [List.mem_eraseDups]

theorem length_edges :
    (lines.foldl add empty).edges.length = (statements.filterMap Statement.edge?).length := by
  rw [edges_foldl_add, ← h, List.filterMap_map]
  simp [empty, newEdges]

theorem edges_finish :
    ((lines.foldl add empty).finish kind direction).document.edges =
      (statements.filterMap Statement.edgeStyle?).foldl styleEdges
        (newEdges 0 (statements.filterMap Statement.edge?)) := by
  rw [finish, edges_foldl_add, edgeStyles_foldl_add, ← h, List.filterMap_map, List.filterMap_map]
  simp only [empty, List.nil_append, List.length_nil, List.map_filterMap, Option.map_map]
  congr 2
  funext line
  exact Option.map_id'

theorem map_edges_finish {α : Type} {f : Edge → α} {g : NodeRef × Arrow × NodeRef → α}
    (hstyle : ∀ e style, f { e with style := style } = f e)
    (hnew : ∀ i e, f (newEdge i e.1 e.2.1 e.2.2) = g e) :
    ((lines.foldl add empty).finish kind direction).document.edges.map f =
      (statements.filterMap Statement.edge?).map g := by
  rw [edges_finish h, map_foldl_styleEdges hstyle, map_newEdges hnew]

theorem document_finish_congr {others : List NumberedLine} {said : List Statement}
    (ho : others.map (fun line => Statement.ofLine line.content) = said)
    (hrefs : statements.flatMap Statement.refs = said.flatMap Statement.refs)
    (hedges : statements.filterMap Statement.edge? = said.filterMap Statement.edge?)
    (hnodeStyles : statements.filterMap Statement.nodeStyle? = said.filterMap Statement.nodeStyle?)
    (hedgeStyles : statements.filterMap Statement.edgeStyle? = said.filterMap Statement.edgeStyle?) :
    ((lines.foldl add empty).finish kind direction).document =
      ((others.foldl add empty).finish kind direction).document := by
  have hnodes := nodes_finish h kind direction
  have hedges' := edges_finish h kind direction
  rw [hrefs, hnodeStyles, ← nodes_finish ho kind direction] at hnodes
  rw [hedges, hedgeStyles, ← edges_finish ho kind direction] at hedges'
  calc ((lines.foldl add empty).finish kind direction).document
      = ⟨kind, direction, ((lines.foldl add empty).finish kind direction).document.nodes,
          ((lines.foldl add empty).finish kind direction).document.edges⟩ := rfl
    _ = ((others.foldl add empty).finish kind direction).document := by rw [hnodes, hedges']; rfl

theorem issues_finish_eq : ((lines.foldl add empty).finish kind direction).issues =
    lines.filterMap skipIssue? ++
      lines.flatMap (rangeIssues (statements.filterMap Statement.edge?).length) := by
  have hstyles : ∀ n, (lines.filterMap fun line =>
      (Statement.ofLine line.content).edgeStyle?.map (line.number, ·)).flatMap (outOfRange n) =
        lines.flatMap (rangeIssues n) := by
    intro n
    rw [List.filterMap_eq_flatMap_toList, List.flatMap_assoc]
    refine List.flatMap_congr fun line _ => ?_
    rw [rangeIssues]
    cases (Statement.ofLine line.content).edgeStyle? <;> simp [outOfRange_eq]
  rw [finish, length_edges h, issues_foldl_add, edgeStyles_foldl_add]
  exact congrArg (_ ++ ·) (hstyles _)

theorem issues_finish (hs : ∀ s ∈ statements, s.skipped? = none)
    (hp : ∀ s ∈ statements, ∀ style, s.edgeStyle? = some style →
      ∀ p ∈ positionsOf style (statements.filterMap Statement.edge?).length,
        p < (statements.filterMap Statement.edge?).length) :
    ((lines.foldl add empty).finish kind direction).issues = [] := by
  have hlines : ∀ line ∈ lines, Statement.ofLine line.content ∈ statements := by
    intro line hl
    rw [← h]
    exact List.mem_map_of_mem hl
  rw [issues_finish_eq h, List.append_eq_nil_iff, List.filterMap_eq_nil_iff,
    List.flatMap_eq_nil_iff]
  refine ⟨fun line hl => ?_, fun line hl => ?_⟩
  · rw [skipIssue?, hs _ (hlines line hl)]
    rfl
  · rw [rangeIssues, List.flatMap_eq_nil_iff]
    intro style hstyle
    rw [← outOfRange_eq, outOfRange, List.map_eq_nil_iff, List.filter_eq_nil_iff]
    intro p hpos
    have := hp _ (hlines line hl) style (Option.mem_toList.mp hstyle) p hpos
    simpa using this

end Finish

end Diagram.Draft
end Flowchart
