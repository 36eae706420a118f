import Mathlib.Data.List.Nodup
import Flowchart.Proofs.Live.Operation

/-! The indexes of the live graph, its selection and its focus agree with the document in every state,
whether or not the ends of edges exist. -/
namespace Flowchart

/-- Nodes stand under their own ids, and edges have different ids. -/
structure Document.HasDistinctIds (d : Document) : Prop where
  keyed : d.KeyedById
  edgeIds : (d.edges.map Edge.id).Nodup

namespace Document

variable {d : Document}

theorem isSome_find?_erase {id k : String} :
    ((d.nodes.erase id).find? k).isSome ↔ k ≠ id ∧ (d.node? k).isSome := by
  rw [Keyed.find?_erase]
  split_ifs with hk <;> simp [hk, node?]

theorem HasDistinctIds.erase (h : d.HasDistinctIds) (id : String) (p : Edge → Bool) :
    HasDistinctIds { d with nodes := d.nodes.erase id, edges := d.edges.filter p } where
  keyed := fun entry he => h.keyed entry (List.mem_filter.mp he).1
  edgeIds := h.edgeIds.sublist (List.filter_sublist.map _)

theorem HasDistinctIds.edge?_eq_some_iff (h : d.HasDistinctIds) {x : String} {e : Edge} :
    d.edge? x = some e ↔ e ∈ d.edges ∧ e.id = x := by
  rw [Document.edge?]
  constructor
  · intro hf
    exact ⟨List.mem_of_find?_eq_some hf, by simpa using List.find?_some hf⟩
  · rintro ⟨he, rfl⟩
    cases hf : d.edges.find? (·.id == e.id) with
    | none =>
      rw [List.find?_eq_none] at hf
      exact absurd (beq_self_eq_true e.id) (hf e he)
    | some e' =>
      have hid : e'.id = e.id := by simpa using List.find?_some hf
      rw [List.inj_on_of_nodup_map h.edgeIds (List.mem_of_find?_eq_some hf) he hid]

end Document

namespace Live.Store

/-- What the graph says besides its document agrees with the document. -/
structure IsAligned (s : Store) : Prop where
  ids : s.document.HasDistinctIds
  edge? : ∀ x, s.edge? x = s.document.edge? x
  indexed : ∀ n, s.IsIndexedAt n
  selectedNodes : ∀ id ∈ s.selectedNodes, (s.node? id).isSome
  selectedEdges : ∀ id ∈ s.selectedEdges, (s.edge? id).isSome
  focus : ∀ id ∈ s.focus, (s.node? id).isSome

variable {s : Store} {d : Document}

section Nodes

variable {id k : String}

theorem isSome_node?_changeNode {f : Node → Node} :
    ((s.changeNode id f).node? k).isSome ↔ (s.node? k).isSome := by
  change ((s.document.nodes.modify id f).find? k).isSome ↔ _
  rw [Keyed.find?_modify]
  split_ifs
  · rw [Option.isSome_map]
    rfl
  · rfl

theorem isSome_node?_addNode (id label : String) (shape : ShapeChoice)
    (position : Option Position) (style : Option NodeStyleChoice) (hk : (s.node? k).isSome) :
    ((s.addNode id label shape position style).store.node? k).isSome := by
  unfold Store.addNode
  split
  · exact hk
  · exact hk
  · change ((s.document.nodes.insert id _).find? k).isSome
    rw [Keyed.find?_insert]
    split_ifs
    · rfl
    · exact hk

theorem edges_addNode (id label : String) (shape : ShapeChoice) (position : Option Position)
    (style : Option NodeStyleChoice) :
    (s.addNode id label shape position style).store.document.edges = s.document.edges := by
  unfold Store.addNode
  split <;> rfl

theorem isSome_node?_setDirection (direction : Except Schema.BadChoice Direction) :
    ((s.setDirection direction).store.node? k).isSome ↔ (s.node? k).isSome := by
  unfold Store.setDirection
  split
  · rfl
  · change ((s.document.arranged _).nodes.find? k).isSome ↔ _
    rw [Document.arranged, Keyed.find?_mapValues, Option.isSome_map]
    rfl

theorem edges_setDirection (direction : Except Schema.BadChoice Direction) :
    (s.setDirection direction).store.document.edges = s.document.edges := by
  unfold Store.setDirection
  split <;> rfl

end Nodes

theorem isAligned_ofDocument (h : d.HasDistinctIds) : (ofDocument d).IsAligned := by
  have hbase : ∀ n, IsIndexedAt ⟨d, .empty, .empty, [], [], none⟩ n := by
    intro n
    constructor
    · simp [noted, Store.edge?]
    · simp [noted]
  obtain ⟨hfind, hindexed⟩ :=
    indexed_foldl_indexEdge h.edgeIds (fun e he => by simp [Store.edge?]) hbase
  have hsurface := surface_ofDocument d
  simp only [surface, Prod.mk.injEq] at hsurface
  obtain ⟨hdocument, hnodes, hedges, hfocus⟩ := hsurface
  constructor
  · rw [hdocument]
    exact h
  · intro x
    rw [hdocument, ofDocument, hfind]
    simp [Store.edge?, Document.edge?]
  · exact hindexed
  · simp [hnodes]
  · simp [hedges]
  · simp [hfocus]

theorem changeLast_eq_map {edges : List Edge} (hn : (edges.map Edge.id).Nodup) (id : String)
    (f : Edge → Edge) :
    changeLast id f edges = edges.map fun e => if e.id = id then f e else e := by
  induction edges with
  | nil => rfl
  | cons e edges ih =>
    rw [List.map_cons, List.nodup_cons] at hn
    rw [changeLast, List.map_cons]
    by_cases hid : edges.any (·.id == id)
    · obtain ⟨e', he', heq⟩ := List.any_eq_true.mp hid
      have hne : e.id ≠ id := by
        rintro rfl
        rw [beq_iff_eq] at heq
        exact hn.1 (heq ▸ List.mem_map_of_mem he')
      rw [if_pos hid, if_neg hne, ih hn.2]
    · rw [if_neg hid]
      congr 1
      symm
      refine (List.map_congr_left fun e' he' => ?_).trans (List.map_id _)
      rw [if_neg fun heq => hid (List.any_eq_true.mpr ⟨e', he', beq_iff_eq.mpr heq⟩)]
      rfl

theorem find?_filter_id (p : String → Bool) (edges : List Edge) (x : String) :
    (edges.filter fun e => p e.id).find? (·.id == x) =
      if p x then edges.find? (·.id == x) else none := by
  rw [List.find?_filter]
  split_ifs with hp
  · congr 1
    funext e
    by_cases hx : e.id = x <;> simp [hx, hp]
  · rw [List.find?_eq_none]
    intro e _ he
    simp only [beq_iff_eq, decide_eq_true_eq] at he
    exact hp (he.2 ▸ he.1)

namespace IsAligned

variable (h : s.IsAligned)
include h

theorem mem_edges_iff {x : String} {e : Edge} :
    s.edge? x = some e ↔ e ∈ s.document.edges ∧ e.id = x := by
  rw [h.edge?, h.ids.edge?_eq_some_iff]

theorem keyedBy_edgeIndex : Keyed.KeyedBy Edge.id s.edgeIndex :=
  fun _ _ hf => (h.mem_edges_iff.mp hf).2

theorem mem_noted_iff {e : Edge} (he : e ∈ s.document.edges) {n : String} :
    e.id ∈ noted s.edgesByNode n ↔ e.Touches n := by
  have hfind := h.mem_edges_iff.mpr ⟨he, rfl⟩
  rw [(h.indexed n).mem_iff]
  constructor
  · rintro ⟨e', he', ht⟩
    rw [hfind, Option.some.injEq] at he'
    exact he' ▸ ht
  · exact fun ht => ⟨e, hfind, ht⟩

/-- The edges that are given for a node are those that touch it. -/
theorem mem_edgesOf_iff {n : String} {e : Edge} :
    e ∈ s.edgesOf n ↔ e ∈ s.document.edges ∧ e.Touches n := by
  change e ∈ (noted s.edgesByNode n).filterMap s.edge? ↔ _
  rw [List.mem_filterMap]
  constructor
  · rintro ⟨x, hx, hfind⟩
    obtain ⟨he, rfl⟩ := h.mem_edges_iff.mp hfind
    exact ⟨he, (h.mem_noted_iff he).mp hx⟩
  · rintro ⟨he, ht⟩
    exact ⟨e.id, (h.mem_noted_iff he).mpr ht, h.mem_edges_iff.mpr ⟨he, rfl⟩⟩

theorem nodup_edgesOf (n : String) : (s.edgesOf n).Nodup := by
  refine List.Nodup.filterMap ?_ (h.indexed n).nodup
  intro x y e hx hy
  rw [← (h.mem_edges_iff.mp hx).2, ← (h.mem_edges_iff.mp hy).2]

theorem withDocument (hedges : d.edges = s.document.edges) (hkeyed : d.KeyedById)
    (hnodes : ∀ id, (s.node? id).isSome → (d.node? id).isSome) :
    IsAligned { s with document := d } where
  ids := ⟨hkeyed, hedges ▸ h.ids.edgeIds⟩
  edge? := by
    intro x
    have hx := h.edge? x
    rw [Document.edge?, ← hedges] at hx
    exact hx
  indexed := fun n => ⟨(h.indexed n).mem_iff, (h.indexed n).nodup⟩
  selectedNodes := fun id hid => hnodes id (h.selectedNodes id hid)
  selectedEdges := h.selectedEdges
  focus := fun id hid => hnodes id (h.focus id hid)

theorem changeNode (id : String) {f : Node → Node} (hf : ∀ node, (f node).id = node.id) :
    (s.changeNode id f).IsAligned := by
  refine h.withDocument rfl ?_ fun k => isSome_node?_changeNode.mpr
  rw [Document.KeyedById, ← Keyed.keyedBy_iff]
  intro k node hk
  have hkeyed := Keyed.keyedBy_iff.mpr h.ids.keyed
  rw [Keyed.find?_modify] at hk
  split_ifs at hk
  · obtain ⟨old, hold, rfl⟩ := Option.map_eq_some_iff.mp hk
    rw [hf]
    exact hkeyed k old hold
  · exact hkeyed k node hk

theorem addNode (id label : String) (shape : ShapeChoice) (position : Option Position)
    (style : Option NodeStyleChoice) :
    (s.addNode id label shape position style).store.IsAligned := by
  have hnodes : ∀ k, (s.node? k).isSome → _ := fun k =>
    isSome_node?_addNode id label shape position style
  unfold Store.addNode at hnodes ⊢
  split at hnodes
  · exact h
  · exact h
  · next kind patch _ =>
    refine h.withDocument rfl ?_ hnodes
    rw [Document.KeyedById, ← Keyed.keyedBy_iff]
    have hkeyed := Keyed.keyedBy_iff.mpr h.ids.keyed
    exact hkeyed.insert ⟨id, label, kind, NodeStyle.standard.patched patch, position⟩

theorem updateNode (id : String) (u : NodeUpdate) : (s.updateNode id u).store.IsAligned :=
  updateNode_induction id u h fun _ _ hf hs => hs.changeNode id hf

theorem setDirection (direction : Except Schema.BadChoice Direction) :
    (s.setDirection direction).store.IsAligned := by
  have hnodes : ∀ k, (s.node? k).isSome → _ := fun k => (isSome_node?_setDirection direction).mpr
  unfold Store.setDirection at hnodes ⊢
  split at hnodes
  · exact h
  · refine h.withDocument rfl ?_ hnodes
    rw [Document.KeyedById, ← Keyed.keyedBy_iff]
    intro k node hk
    have hkeyed := Keyed.keyedBy_iff.mpr h.ids.keyed
    simp only [Document.arranged, Keyed.find?_mapValues, Option.map_eq_some_iff] at hk
    obtain ⟨old, hold, rfl⟩ := hk
    exact hkeyed k old hold

theorem addEdge {id : String} (hid : ∀ e ∈ s.document.edges, e.id ≠ id) (source target : String)
    (label : Option String) (arrow : ArrowChoice) :
    (s.addEdge id source target label arrow).store.IsAligned := by
  unfold Store.addEdge
  split_ifs
  · exact h
  · exact h
  · exact h
  split
  · exact h
  next kind =>
  extract_lets e
  have hnew : s.edge? e.id = none := by
    rw [Option.eq_none_iff_forall_ne_some]
    intro old hold
    obtain ⟨hmem, heq⟩ := h.mem_edges_iff.mp hold
    exact hid old hmem heq
  have hnone : ∀ e' ∈ s.document.edges, ¬(e'.id == id) = true := by
    intro e' he'
    rw [beq_iff_eq]
    exact hid e' he'
  have hfind : ∀ x, ((s.withEdges (s.document.edges ++ [e])).indexEdge e).edge? x =
      if e.id = x then some e else s.edge? x := fun x => edge?_indexEdge
  constructor
  · refine ⟨h.ids.keyed, ?_⟩
    change ((s.document.edges ++ [e]).map Edge.id).Nodup
    rw [List.map_append, List.nodup_append]
    refine ⟨h.ids.edgeIds, by simp, ?_⟩
    rintro x hx y hy rfl
    obtain ⟨e', he', rfl⟩ := List.mem_map.mp hx
    exact hid e' he' (by simpa using hy)
  · intro x
    refine (hfind x).trans ?_
    change _ = (s.document.edges ++ [e]).find? _
    rw [h.edge?, Document.edge?, List.find?_append]
    by_cases hxid : e.id = x
    · subst hxid
      rw [if_pos rfl, List.find?_eq_none.mpr hnone]
      simp
    · simp [hxid]
  · intro n
    have hindexed : (s.withEdges (s.document.edges ++ [e])).IsIndexedAt n :=
      ⟨(h.indexed n).mem_iff, (h.indexed n).nodup⟩
    exact hindexed.indexEdge hnew
  · exact h.selectedNodes
  · intro x hx
    have hsome := h.selectedEdges x hx
    refine (congrArg Option.isSome (hfind x)).trans ?_
    split_ifs
    · rfl
    · exact hsome
  · exact h.focus

theorem edges_changeEdge (id : String) (f : Edge → Edge) : (s.changeEdge id f).document.edges =
    s.document.edges.map fun e => if e.id = id then f e else e :=
  changeLast_eq_map h.ids.edgeIds id f

theorem changeEdge (id : String) {f : Edge → Edge}
    (hf : ∀ e, (f e).id = e.id ∧ (f e).source = e.source ∧ (f e).target = e.target) :
    (s.changeEdge id f).IsAligned := by
  obtain ⟨g, hg⟩ : ∃ g : Edge → Edge, ∀ e, g e = if e.id = id then f e else e := ⟨_, fun _ => rfl⟩
  have hkeep : ∀ e, (g e).id = e.id ∧ (g e).source = e.source ∧ (g e).target = e.target := by
    intro e
    rw [hg]
    split_ifs
    · exact hf e
    · exact ⟨rfl, rfl, rfl⟩
  have hedges : (s.changeEdge id f).document.edges = s.document.edges.map g := by
    rw [h.edges_changeEdge]
    exact List.map_congr_left fun e _ => (hg e).symm
  have hfind : ∀ x, (s.changeEdge id f).edge? x = (s.edge? x).map g := by
    intro x
    change (s.edgeIndex.modify id f).find? x = (s.edgeIndex.find? x).map g
    rw [Keyed.find?_modify]
    cases he : s.edgeIndex.find? x with
    | none => simp
    | some e =>
      have hid : e.id = x := h.keyedBy_edgeIndex x e he
      rw [Option.map_some, Option.map_some, hg, hid]
      split_ifs <;> rfl
  constructor
  · refine ⟨h.ids.keyed, ?_⟩
    have hids : Edge.id ∘ g = Edge.id := funext fun e => (hkeep e).1
    rw [hedges, List.map_map, hids]
    exact h.ids.edgeIds
  · intro x
    have hids : (fun e : Edge => e.id == x) ∘ g = fun e => e.id == x := by
      funext e
      rw [Function.comp_apply, (hkeep e).1]
    rw [hfind, h.edge?, Document.edge?, Document.edge?, hedges, List.find?_map, hids]
  · intro n
    refine ⟨fun x => ?_, (h.indexed n).nodup⟩
    have htouches : ∀ e, (g e).Touches n ↔ e.Touches n := by
      intro e
      rw [Edge.Touches, Edge.Touches, (hkeep e).2.1, (hkeep e).2.2]
    rw [hfind]
    refine ((h.indexed n).mem_iff x).trans ?_
    simp [htouches]
  · exact h.selectedNodes
  · intro x hx
    rw [hfind, Option.isSome_map]
    exact h.selectedEdges x hx
  · exact h.focus

theorem updateEdge (id : String) (u : EdgeUpdate) : (s.updateEdge id u).store.IsAligned :=
  updateEdge_induction id u h fun _ _ hf hs => hs.changeEdge id hf

theorem setSelection (nodes edges : List String) :
    (s.setSelection nodes edges).store.IsAligned where
  ids := h.ids
  edge? := h.edge?
  indexed := fun n => ⟨(h.indexed n).mem_iff, (h.indexed n).nodup⟩
  selectedNodes := by
    intro id hid
    exact Keyed.isSome_find?_iff.mpr (Keyed.contains_iff.mp (List.mem_filter.mp hid).2)
  selectedEdges := by
    intro id hid
    exact Keyed.isSome_find?_iff.mpr (Keyed.contains_iff.mp (List.mem_filter.mp hid).2)
  focus := h.focus

theorem setFocus (node : Option String) : (s.setFocus node).store.IsAligned := by
  unfold Store.setFocus
  split_ifs with hn
  · exact h
  · refine ⟨h.ids, h.edge?, fun n => ⟨(h.indexed n).mem_iff, (h.indexed n).nodup⟩,
      h.selectedNodes, h.selectedEdges, ?_⟩
    intro id hid
    change id ∈ node at hid
    rw [Option.mem_def] at hid
    subst hid
    rw [Option.any_some, Bool.not_eq_true, Bool.not_eq_false'] at hn
    exact Keyed.isSome_find?_iff.mpr (Keyed.contains_iff.mp hn)

end IsAligned
end Live.Store
end Flowchart
