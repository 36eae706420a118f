import Flowchart.Proofs.Live.Alignment

/-! What a deletion takes from the live graph, and that it takes nothing else. Edges go by the ids that
are noted for a node, which are those of the edges at it in every state. -/
namespace Flowchart.Live

namespace Store

variable {s t : Store} {id : String}

/-- The graph has lost a node with the edges at it, and what is selected and in focus of that. -/
structure LosesNode (s : Store) (id : String) (t : Store) : Prop where
  nodes : t.document.nodes.entries = s.document.nodes.entries.filter (·.1 != id)
  edges : t.document.edges = s.document.edges.filter (¬·.Touches id)
  kind : t.document.kind = s.document.kind
  direction : t.document.direction = s.document.direction
  selectedNodes : t.selectedNodes = s.selectedNodes.filter fun n => (t.node? n).isSome
  selectedEdges : t.selectedEdges = s.selectedEdges.filter fun x => (t.document.edge? x).isSome
  focus : t.focus = if s.focus = some id then none else s.focus

theorem LosesNode.isSome_node?_iff (h : LosesNode s id t) {k : String} :
    (t.node? k).isSome ↔ k ≠ id ∧ (s.node? k).isSome := by
  have hnodes : t.document.nodes = s.document.nodes.erase id := Keyed.ext_entries h.nodes
  rw [Store.node?, Document.node?, hnodes]
  exact Document.isSome_find?_erase

/-- The graph has lost an edge, and nothing else than the edge is no longer selected. -/
structure LosesEdge (s : Store) (e : Edge) (t : Store) : Prop where
  document : t.document = { s.document with edges := s.document.edges.filter (· != e) }
  selectedNodes : t.selectedNodes = s.selectedNodes
  selectedEdges : t.selectedEdges = s.selectedEdges.filter (· != e.id)
  focus : t.focus = s.focus

/-- The edges that are found under an id and at a node are those of the document. -/
structure FindsItsEdges (s : Store) : Prop where
  edge? : ∀ x e, s.edge? x = some e ↔ e ∈ s.document.edges ∧ e.id = x
  edgesOf : ∀ n e, e ∈ s.edgesOf n ↔ e ∈ s.document.edges ∧ e.Touches n

namespace IsAligned

variable (h : s.IsAligned)
include h

theorem findsItsEdges : s.FindsItsEdges :=
  ⟨fun _ _ => h.mem_edges_iff, fun _ _ => h.mem_edgesOf_iff⟩

section Node

theorem isIndexedAt_erase (id : String) {t : Store} (hindex : t.edgeIndex = s.edgeIndex)
    (hnotes : t.edgesByNode = s.edgesByNode.erase id) (n : String) :
    ((noted s.edgesByNode id).foldl unindexId t).IsIndexedAt n := by
  have hkeyed : Keyed.KeyedBy Edge.id t.edgeIndex := hindex ▸ h.keyedBy_edgeIndex
  have hedge : ∀ x, t.edge? x = s.edge? x := by
    intro x
    rw [Store.edge?, Store.edge?, hindex]
  by_cases hn : n = id
  · subst hn
    have hnil : noted ((noted s.edgesByNode n).foldl unindexId t).edgesByNode n = [] := by
      refine noted_foldl_unindexId_of_nil ?_ _
      rw [hnotes, noted, Keyed.find?_erase, if_pos rfl]
      rfl
    refine ⟨fun x => ?_, by simp [hnil]⟩
    rw [hnil, edge?_foldl_unindexId hkeyed]
    simp only [List.not_mem_nil, false_iff, not_exists, not_and]
    intro e he ht
    split_ifs at he with hx
    exact hx (((h.indexed n).mem_iff x).mpr ⟨e, (hedge x).symm.trans he, ht⟩)
  · have hnoted : noted t.edgesByNode n = noted s.edgesByNode n := by
      rw [hnotes, noted, Keyed.find?_erase, if_neg hn]
      rfl
    have hindexed : t.IsIndexedAt n := by
      refine ⟨fun x => ?_, ?_⟩
      · rw [hnoted, hedge]
        exact (h.indexed n).mem_iff x
      · rw [hnoted]
        exact (h.indexed n).nodup
    exact hindexed.foldl_unindexId hkeyed _

theorem store_deleteNode (hn : (s.node? id).isSome) :
    ∃ edgeIndex edgesByNode, (s.deleteNode id).store =
      { document :=
          { s.document with
            nodes := s.document.nodes.erase id
            edges := s.document.edges.filter fun e => !(noted s.edgesByNode id).contains e.id }
        edgeIndex := edgeIndex
        edgesByNode := edgesByNode
        selectedNodes := s.selectedNodes.filter (· != id)
        selectedEdges := s.selectedEdges.filter fun x => !(noted s.edgesByNode id).contains x
        focus := if s.focus = some id then none else s.focus } ∧
      (∀ x, (s.deleteNode id).store.edge? x =
        if x ∈ noted s.edgesByNode id then none else s.edge? x) ∧
      ∀ n, (s.deleteNode id).store.IsIndexedAt n := by
  unfold Store.deleteNode
  rw [if_neg (by rwa [Option.isNone_iff_eq_none, ← ne_eq, ← Option.isSome_iff_ne_none])]
  extract_lets ids s₁ s₂ s₃ s₄ s₅
  have hsurface := surface_foldl surface_unindexId ids s₃
  simp only [surface, Prod.mk.injEq] at hsurface
  obtain ⟨hdocument, hselectedNodes, hselectedEdges, hfocus⟩ := hsurface
  refine ⟨s₄.edgeIndex, s₄.edgesByNode, ?_, ?_, fun n => ?_⟩
  · change Store.mk s₄.document s₄.edgeIndex s₄.edgesByNode (s₄.selectedNodes.filter _)
      (s₄.selectedEdges.filter _) (if s₄.focus = some id then none else s₄.focus) = _
    rw [hdocument, hselectedNodes, hselectedEdges, hfocus]
    rfl
  · exact edge?_foldl_unindexId (s := s₃) h.keyedBy_edgeIndex ids
  · have hindexed : s₄.IsIndexedAt n := h.isIndexedAt_erase id (t := s₃) rfl rfl n
    exact ⟨hindexed.mem_iff, hindexed.nodup⟩

theorem filter_noted (id : String) :
    (s.document.edges.filter fun e => !(noted s.edgesByNode id).contains e.id) =
      s.document.edges.filter (¬·.Touches id) := by
  refine List.filter_congr fun e he => ?_
  rw [Bool.eq_iff_iff, Bool.not_eq_true', ← Bool.not_eq_true, List.contains_iff_mem,
    h.mem_noted_iff he, decide_eq_true_iff]

/-- A deletion of a node leaves the graph aligned, and it takes the node with the edges at it. -/
theorem deleteNode_of_isSome (hn : (s.node? id).isSome) :
    (s.deleteNode id).store.IsAligned ∧ LosesNode s id (s.deleteNode id).store := by
  obtain ⟨edgeIndex, edgesByNode, hstore, hfind, hindexed⟩ := h.store_deleteNode hn
  have hfound : ∀ x, (s.deleteNode id).store.edge? x =
      (s.deleteNode id).store.document.edge? x := by
    intro x
    rw [hfind, h.edge?, hstore]
    refine Eq.trans ?_ (find?_filter_id (fun x => !(noted s.edgesByNode id).contains x) _ x).symm
    by_cases hx : x ∈ noted s.edgesByNode id <;> simp [hx, Document.edge?]
  have hnode : ∀ k ∈ s.selectedNodes,
      (k != id) = ((s.deleteNode id).store.node? k).isSome := by
    intro k hk
    rw [hstore, Bool.eq_iff_iff, bne_iff_ne]
    exact ⟨fun hne => Document.isSome_find?_erase.mpr ⟨hne, h.selectedNodes k hk⟩,
      fun hsome => (Document.isSome_find?_erase.mp hsome).1⟩
  have hedge : ∀ x ∈ s.selectedEdges, (!(noted s.edgesByNode id).contains x) =
      ((s.deleteNode id).store.edge? x).isSome := by
    intro x hx
    rw [hfind]
    by_cases hmem : x ∈ noted s.edgesByNode id <;> simp [hmem, h.selectedEdges x hx]
  have hselectedNodes : (s.deleteNode id).store.selectedNodes =
      s.selectedNodes.filter fun k => ((s.deleteNode id).store.node? k).isSome := by
    rw [← List.filter_congr hnode, hstore]
  have hselectedEdges : (s.deleteNode id).store.selectedEdges =
      s.selectedEdges.filter fun x => ((s.deleteNode id).store.edge? x).isSome := by
    rw [← List.filter_congr hedge, hstore]
  constructor
  · refine ⟨?_, hfound, hindexed, ?_, ?_, ?_⟩
    · rw [hstore]
      exact h.ids.erase id _
    · intro k hk
      rw [hselectedNodes] at hk
      exact (List.mem_filter.mp hk).2
    · intro x hx
      rw [hselectedEdges] at hx
      exact (List.mem_filter.mp hx).2
    · intro k hk
      rw [hstore] at hk ⊢
      dsimp only at hk
      split_ifs at hk with hf
      · cases hk
      · refine Document.isSome_find?_erase.mpr ⟨?_, h.focus k hk⟩
        rintro rfl
        exact hf hk
  · simp only [hfound] at hselectedEdges
    refine ⟨?_, ?_, ?_, ?_, hselectedNodes, hselectedEdges, ?_⟩
    · rw [hstore]
      rfl
    · rw [hstore]
      exact h.filter_noted id
    all_goals rw [hstore]

end Node

section Edge

theorem deleteEdge_of_mem {e : Edge} (he : e ∈ s.document.edges) :
    (s.deleteEdge e.id).store.IsAligned ∧ LosesEdge s e (s.deleteEdge e.id).store := by
  have hedge : s.edge? e.id = some e := h.mem_edges_iff.mpr ⟨he, rfl⟩
  have hfind : ∀ x, (s.unindexEdge e).edge? x = if x = e.id then none else s.edge? x :=
    fun x => edge?_unindexEdge
  unfold Store.deleteEdge
  simp only [hedge]
  constructor
  · refine ⟨⟨h.ids.keyed, h.ids.edgeIds.sublist (List.filter_sublist.map _)⟩, ?_, ?_, h.selectedNodes,
      ?_, h.focus⟩
    · intro x
      refine (hfind x).trans ?_
      rw [h.edge?]
      refine Eq.trans ?_ (find?_filter_id (· != e.id) s.document.edges x).symm
      by_cases hx : x = e.id <;> simp [hx, Document.edge?]
    · intro n
      have hindexed := (h.indexed n).unindexEdge hedge
      exact ⟨hindexed.mem_iff, hindexed.nodup⟩
    · intro x hx
      obtain ⟨hmem, hne⟩ := List.mem_filter.mp hx
      refine (congrArg Option.isSome (hfind x)).trans ?_
      rw [if_neg (by simpa using hne)]
      exact h.selectedEdges x hmem
  · have honly : s.document.edges.filter (·.id != e.id) = s.document.edges.filter (· != e) := by
      refine List.filter_congr fun e' he' => ?_
      rw [Bool.eq_iff_iff, bne_iff_ne, bne_iff_ne]
      refine not_congr ⟨fun hid => ?_, congrArg Edge.id⟩
      exact List.inj_on_of_nodup_map h.ids.edgeIds he' he hid
    refine ⟨?_, rfl, rfl, rfl⟩
    rw [← honly]
    rfl

end Edge

theorem deleteNode (id : String) : (s.deleteNode id).store.IsAligned := by
  by_cases hn : (s.node? id).isSome
  · exact (h.deleteNode_of_isSome hn).1
  · unfold Store.deleteNode
    rw [if_pos (by simpa using hn)]
    exact h

theorem deleteEdge (id : String) : (s.deleteEdge id).store.IsAligned := by
  cases hedge : s.edge? id with
  | none =>
    unfold Store.deleteEdge
    rw [hedge]
    exact h
  | some e =>
    obtain ⟨he, rfl⟩ := h.mem_edges_iff.mp hedge
    exact (h.deleteEdge_of_mem he).1

end IsAligned

end Store

/-- A new edge has an id that is not in use, and in a document that comes in ids are distinct. -/
def StoreOp.KeepsIds (s : Store) : StoreOp → Prop
  | addEdge id .. => ∀ e ∈ s.document.edges, e.id ≠ id
  | replaceAll document => document.HasDistinctIds
  | _ => True

namespace Store

/-- One operation keeps the graph aligned, also where it fails. -/
theorem IsAligned.run {s : Store} (h : s.IsAligned) {op : StoreOp} (hop : op.KeepsIds s) :
    (op.run s).store.IsAligned := by
  cases op with
  | addNode id label shape position style => exact h.addNode id label shape position style
  | updateNode id update => exact h.updateNode id update
  | deleteNode id => exact h.deleteNode id
  | addEdge id source target label arrow => exact h.addEdge hop source target label arrow
  | updateEdge id update => exact h.updateEdge id update
  | deleteEdge id => exact h.deleteEdge id
  | replaceAll document =>
    have hids : document.HasDistinctIds := hop
    change (s.replaceAll document).store.IsAligned
    rw [store_replaceAll s hids.keyed]
    exact isAligned_ofDocument hids
  | setDirection direction => exact h.setDirection direction
  | setSelection nodes edges => exact h.setSelection nodes edges
  | setFocus node => exact h.setFocus node

/-- The states that operations lead to, from documents on whose edges may dangle. -/
inductive IsLooselyReachable : Store → Prop
  | start {d : Document} (h : d.HasDistinctIds) : IsLooselyReachable (ofDocument d)
  | step {s : Store} {op : StoreOp} (hs : IsLooselyReachable s) (hop : op.KeepsIds s) :
      IsLooselyReachable (op.run s).store

theorem IsLooselyReachable.isAligned {s : Store} (h : s.IsLooselyReachable) : s.IsAligned := by
  induction h with
  | start hd => exact isAligned_ofDocument hd
  | step _ hop ih => exact ih.run hop

theorem isLooselyReachable_empty : Store.empty.IsLooselyReachable :=
  .start ⟨by simp [Document.KeyedById, Document.empty, Keyed.empty], by simp [Document.empty]⟩

/-- In every state that can be reached, a deletion of a node or of an edge that is there takes what it
should and nothing else, and what it took is found no more, under whatever id. -/
theorem IsLooselyReachable.deletes {s : Store} (h : s.IsLooselyReachable) :
    (∀ id, (s.node? id).isSome →
      (s.deleteNode id).result = .ok true ∧ LosesNode s id (s.deleteNode id).store ∧
        (s.deleteNode id).store.FindsItsEdges) ∧
    ∀ e ∈ s.document.edges,
      (s.deleteEdge e.id).result = .ok true ∧ LosesEdge s e (s.deleteEdge e.id).store ∧
        (s.deleteEdge e.id).store.FindsItsEdges := by
  have hs := h.isAligned
  constructor
  · intro id hn
    obtain ⟨haligned, hloses⟩ := hs.deleteNode_of_isSome hn
    refine ⟨?_, hloses, haligned.findsItsEdges⟩
    unfold deleteNode
    rw [if_neg (by rwa [Option.isNone_iff_eq_none, ← ne_eq, ← Option.isSome_iff_ne_none])]
    rfl
  · intro e he
    obtain ⟨haligned, hloses⟩ := hs.deleteEdge_of_mem he
    refine ⟨?_, hloses, haligned.findsItsEdges⟩
    unfold deleteEdge
    rw [hs.mem_edges_iff.mpr ⟨he, rfl⟩]
    rfl

/-- A loop, two edges between the same nodes, and two edges that dangle. -/
def tangledDocument : Document where
  kind := .flowchart
  direction := .topDown
  nodes := .ofValues Node.id [.stub "A", .stub "B"]
  edges :=
    [⟨"loop", "A", "A", none, .plain, .standard⟩, ⟨"first", "A", "B", none, .plain, .standard⟩,
     ⟨"second", "A", "B", none, .plain, .standard⟩, ⟨"lost", "B", "X", none, .plain, .standard⟩,
     ⟨"away", "X", "Y", none, .plain, .standard⟩]

/-- The document has come in, a loop at the second node was added, and the first node has the focus. -/
def tangledStore : Store :=
  ((StoreOp.setFocus (some "A")).run
    ((StoreOp.setSelection ["B", "A"] ["new", "first", "lost"]).run
      ((StoreOp.addEdge "new" "B" "B" none (.ok .plain)).run
        ((StoreOp.replaceAll tangledDocument).run .empty).store).store).store).store

theorem deletes_tangledStore : tangledStore.IsLooselyReachable ∧
    (tangledStore.node? "A").isSome ∧ tangledStore.document.edges.length = 6 ∧
    LosesNode tangledStore "A" (tangledStore.deleteNode "A").store ∧
    (tangledStore.deleteNode "A").store.document.edges.map Edge.id = ["lost", "away", "new"] ∧
    (tangledStore.deleteNode "A").store.selectedEdges = ["new", "lost"] ∧
    (tangledStore.deleteNode "A").store.focus = none := by
  have hreach : tangledStore.IsLooselyReachable := by
    refine .step (.step (.step (.step isLooselyReachable_empty ⟨?_, ?_⟩) ?_) trivial) trivial
    · unfold Document.KeyedById
      decide +kernel
    · decide +kernel
    · unfold StoreOp.KeepsIds
      decide +kernel
  have hnode : (tangledStore.node? "A").isSome := by decide +kernel
  obtain ⟨-, hloses, -⟩ := hreach.deletes.1 "A" hnode
  exact ⟨hreach, hnode, by decide +kernel, hloses, by decide +kernel, by decide +kernel,
    by decide +kernel⟩

end Store
end Flowchart.Live
