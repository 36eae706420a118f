import Flowchart.Proofs.Live.LastEdge

/-! What an addition to the live graph takes away: nothing, unless the id of what is added is in use. -/
namespace Flowchart.Live.Store

variable {s t : Store} {node : Node} {e : Edge}

/-- Every node and edge of one store is in another as it was, and found there if it was found. -/
structure Keeps (s t : Store) : Prop where
  nodes : ∀ x node, s.node? x = some node → t.node? x = some node
  edges : s.document.edges <+: t.document.edges
  found : ∀ x e, s.edge? x = some e → t.edge? x = some e

/-- A node has come under its id, and nothing else has changed. -/
structure GainsNode (s : Store) (node : Node) (t : Store) : Prop where
  node? : ∀ x, t.node? x = if x = node.id then some node else s.node? x
  keys : t.document.nodes.keys = Keyed.addKey s.document.nodes.keys node.id
  edges : t.document.edges = s.document.edges
  edge? : ∀ x, t.edge? x = s.edge? x

/-- An edge has come last, it is the one found under its id, and nothing else has changed. -/
structure GainsEdge (s : Store) (e : Edge) (t : Store) : Prop where
  nodes : t.document.nodes = s.document.nodes
  edges : t.document.edges = s.document.edges ++ [e]
  edge? : ∀ x, t.edge? x = if x = e.id then some e else s.edge? x

namespace GainsNode

variable (h : GainsNode s node t)
include h

theorem keeps_iff : s.Keeps t ↔ ∀ old, s.node? node.id = some old → old = node := by
  constructor
  · intro hkeeps old hold
    have hnew := hkeeps.nodes node.id old hold
    rw [h.node?, if_pos rfl, Option.some_inj] at hnew
    exact hnew.symm
  · intro hsame
    refine ⟨?_, by rw [h.edges], fun x e he => by rw [h.edge?, he]⟩
    intro x old hold
    rw [h.node?]
    split_ifs with hx
    · rw [hsame old (hx ▸ hold)]
    · exact hold

theorem length_keys_iff : t.document.nodes.keys.length = s.document.nodes.keys.length + 1 ↔
    s.node? node.id = none := by
  rw [h.keys, Keyed.addKey, Store.node?, Document.node?, Keyed.find?_eq_none_iff]
  split_ifs with hid
  · simp [hid]
  · simp [hid]

end GainsNode

/-- The only edge that can be lost is the one found under the same id: it stays in the graph, but is
found no more. -/
theorem GainsEdge.keeps_iff (h : GainsEdge s e t) :
    s.Keeps t ↔ ∀ old, s.edge? e.id = some old → old = e := by
  constructor
  · intro hkeeps old hold
    have hnew := hkeeps.found e.id old hold
    rw [h.edge?, if_pos rfl, Option.some_inj] at hnew
    exact hnew.symm
  · intro hsame
    refine ⟨fun x node hnode => ?_, by simp [h.edges], ?_⟩
    · rwa [Store.node?, Document.node?, h.nodes]
    · intro x old hold
      rw [h.edge?]
      split_ifs with hx
      · rw [hsame old (hx ▸ hold)]
      · exact hold

theorem exists_addNode (s : Store) (id label : String) (shape : NodeShape)
    (position : Option Position) {style : Option NodeStyleChoice} {patch : NodeStylePatch}
    (hstyle : style.getD (.ok {}) = .ok patch) :
    ∃ t, s.addNode id label (.ok shape) position style = t.changed .nodes ∧
      GainsNode s ⟨id, label, shape, NodeStyle.standard.patched patch, position⟩ t := by
  let node : Node := ⟨id, label, shape, NodeStyle.standard.patched patch, position⟩
  refine ⟨s.withNodes (s.document.nodes.insert id node), ?_, ?_, ?_, rfl, fun _ => rfl⟩
  · simp only [addNode, hstyle, node]
  · intro x
    simp only [eq_comm (a := x)]
    exact Keyed.find?_insert _ _ _ x
  · exact Keyed.keys_insert _ _ _

theorem exists_addEdge (id : String) {source target : String} (label : Option String)
    (kind : ArrowKind) (hspecified : source ≠ "" ∧ target ≠ "")
    (hends : (s.node? source).isSome ∧ (s.node? target).isSome) :
    ∃ t, s.addEdge id source target label (.ok kind) = t.changed .edges ∧
      GainsEdge s ⟨id, source, target, nonEmpty label, kind, .standard⟩ t := by
  let e : Edge := ⟨id, source, target, nonEmpty label, kind, .standard⟩
  refine ⟨(s.withEdges (s.document.edges ++ [e])).indexEdge e, ?_, rfl, rfl, ?_⟩
  · simp [addEdge, hspecified, Option.isSome_iff_ne_none.mp hends.1,
      Option.isSome_iff_ne_none.mp hends.2, e]
  · intro x
    simp only [edge?_indexEdge, eq_comm (a := x)]
    rfl

/-- In every state that arises, and under whatever id: a node that is added leaves everything as it was
and makes one node more exactly if its id is not in use. An edge that is added makes one edge more and
leaves everything as it was exactly if no other edge was found under its id. -/
theorem Arises.additions_keep_iff (h : s.Arises) (id : String) :
    (∀ label shape position style patch, style.getD (.ok {}) = .ok patch →
      ∃ t, s.addNode id label (.ok shape) position style = t.changed .nodes ∧
        GainsNode s ⟨id, label, shape, NodeStyle.standard.patched patch, position⟩ t ∧
        (s.Keeps t ∧ t.document.nodes.keys.length = s.document.nodes.keys.length + 1 ↔
          s.node? id = none)) ∧
    ∀ source target label kind, source ≠ "" ∧ target ≠ "" →
      (s.node? source).isSome ∧ (s.node? target).isSome →
      ∃ t, s.addEdge id source target label (.ok kind) = t.changed .edges ∧
        GainsEdge s ⟨id, source, target, nonEmpty label, kind, .standard⟩ t ∧
        t.document.edges.length = s.document.edges.length + 1 ∧
        (s.Keeps t ↔ ∀ old, lastEdge? s.document.edges id = some old →
          old = ⟨id, source, target, nonEmpty label, kind, .standard⟩) := by
  constructor
  · intro label shape position style patch hstyle
    obtain ⟨t, hadd, hgains⟩ := s.exists_addNode id label shape position hstyle
    refine ⟨t, hadd, hgains, ?_⟩
    rw [hgains.keeps_iff, hgains.length_keys_iff]
    exact ⟨And.right, fun hnone => ⟨fun old hold => absurd hold (by simp [hnone]), hnone⟩⟩
  · intro source target label kind hspecified hends
    obtain ⟨t, hadd, hgains⟩ := exists_addEdge id label kind hspecified hends
    refine ⟨t, hadd, hgains, by simp [hgains.edges], ?_⟩
    rw [hgains.keeps_iff, h.indexesLast]

/-- A node and an edge under ids as they are generated. -/
def generatedDocument : Document where
  kind := .flowchart
  direction := .topDown
  nodes := .ofValues Node.id [.stub IdSupply.first.nodeId, .stub "B"]
  edges := [⟨IdSupply.first.edgeId, "B", "B", none, .plain, .standard⟩]

/-- The same ids are generated once more: the node that was there is lost, and the edge that was there
is found no more. -/
theorem additions_generatedDocument : ∃ t u : Store,
    (ofDocument generatedDocument).addNode IdSupply.first.nodeId "New" (.ok .circle) none none =
        t.changed .nodes ∧
      (t.node? IdSupply.first.nodeId).map Node.label = some "New" ∧
      t.document.nodes.keys = [IdSupply.first.nodeId, "B"] ∧
      ¬((ofDocument generatedDocument).Keeps t ∧ t.document.nodes.keys.length =
        (ofDocument generatedDocument).document.nodes.keys.length + 1) ∧
    (ofDocument generatedDocument).addEdge IdSupply.first.edgeId "B" IdSupply.first.nodeId none
        (.ok .plain) = u.changed .edges ∧
      (u.edge? IdSupply.first.edgeId).map Edge.target = some IdSupply.first.nodeId ∧
      u.document.edges.length = 2 ∧ ¬(ofDocument generatedDocument).Keeps u := by
  have harises := Arises.start generatedDocument
  obtain ⟨t, hnode, ht, hnodes⟩ := (harises.additions_keep_iff IdSupply.first.nodeId).1 "New" .circle
    none none {} rfl
  obtain ⟨u, hedge, hu, hcount, hedges⟩ := (harises.additions_keep_iff IdSupply.first.edgeId).2 "B"
    IdSupply.first.nodeId none .plain (by decide +kernel) (by decide +kernel)
  refine ⟨t, u, hnode, ?_, ?_, ?_, hedge, ?_, ?_, ?_⟩
  · rw [ht.node?, if_pos rfl]
    rfl
  · rw [ht.keys]
    decide +kernel
  · rw [hnodes]
    decide +kernel
  · rw [hu.edge?, if_pos rfl]
    rfl
  · rw [hcount]
    decide +kernel
  · rw [hedges]
    intro hsame
    have hold := hsame ⟨IdSupply.first.edgeId, "B", "B", none, .plain, .standard⟩ (by decide +kernel)
    exact absurd (congrArg Edge.target hold) (by decide +kernel)

end Flowchart.Live.Store
