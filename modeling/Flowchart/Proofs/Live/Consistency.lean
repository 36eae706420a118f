import Flowchart.Proofs.Diagram.Check
import Flowchart.Proofs.Live.Deletion

/-! The live graph is consistent in every state that can be reached: its indexes agree with its
edges, every end of an edge exists, and so does everything that is selected or has the focus. -/
namespace Flowchart

/-- Nodes stand under their own ids, edges have different ids, and the ends of every edge exist. -/
structure Document.IsLinked (d : Document) : Prop where
  keyed : d.KeyedById
  edgeIds : (d.edges.map Edge.id).Nodup
  ends : ∀ e ∈ d.edges, (d.node? e.source).isSome ∧ (d.node? e.target).isSome

namespace Document

def HasEnds (d : Document) : Prop :=
  ∀ e ∈ d.edges, (d.node? e.source).isSome ∧ (d.node? e.target).isSome

variable {d d' : Document}

theorem isLinked_iff : d.IsLinked ↔ d.HasDistinctIds ∧ d.HasEnds :=
  ⟨fun h => ⟨⟨h.keyed, h.edgeIds⟩, h.ends⟩, fun h => ⟨h.1.keyed, h.1.edgeIds, h.2⟩⟩

theorem HasEnds.mono (h : d.HasEnds) (hedges : ∀ e ∈ d'.edges, e ∈ d.edges)
    (hnodes : ∀ id, (d.node? id).isSome → (d'.node? id).isSome) : d'.HasEnds := by
  intro e he
  obtain ⟨hs, ht⟩ := h e (hedges e he)
  exact ⟨hnodes _ hs, hnodes _ ht⟩

theorem IsLinked.severity_ne_error (h : d.IsLinked) :
    ∀ issue ∈ d.issues, issue.severity ≠ .error := by
  intro issue hi herror
  obtain ⟨e, he, which, hmissing⟩ := exists_of_error hi herror
  obtain ⟨hs, ht⟩ := h.ends e he
  cases which with
  | source => exact hmissing (Keyed.isSome_find?_iff.mp hs)
  | target => exact hmissing (Keyed.isSome_find?_iff.mp ht)

end Document

namespace Live

namespace Store

/-- What holds of the graph in every state. -/
structure IsConsistent (s : Store) : Prop where
  linked : s.document.IsLinked
  edge? : ∀ x, s.edge? x = s.document.edge? x
  indexed : ∀ n, s.IsIndexedAt n
  selectedNodes : ∀ id ∈ s.selectedNodes, (s.node? id).isSome
  selectedEdges : ∀ id ∈ s.selectedEdges, (s.edge? id).isSome
  focus : ∀ id ∈ s.focus, (s.node? id).isSome

variable {s : Store} {id : String}

theorem isConsistent_iff : s.IsConsistent ↔ s.IsAligned ∧ s.document.HasEnds := by
  constructor
  · intro h
    obtain ⟨hids, hends⟩ := Document.isLinked_iff.mp h.linked
    exact ⟨⟨hids, h.edge?, h.indexed, h.selectedNodes, h.selectedEdges, h.focus⟩, hends⟩
  · rintro ⟨h, hends⟩
    exact ⟨Document.isLinked_iff.mpr ⟨h.ids, hends⟩, h.edge?, h.indexed, h.selectedNodes,
      h.selectedEdges, h.focus⟩

section Ends

variable (hends : s.document.HasEnds)
include hends

theorem hasEnds_addEdge (source target : String) (label : Option String) (arrow : ArrowChoice) :
    (s.addEdge id source target label arrow).store.document.HasEnds := by
  unfold addEdge
  split_ifs with hempty hsource htarget
  · exact hends
  · exact hends
  · exact hends
  split
  · exact hends
  rw [Bool.not_eq_true, Option.isNone_eq_false_iff] at hsource htarget
  intro e he
  rcases List.mem_append.mp he with he | he
  · exact hends e he
  · rw [List.mem_singleton] at he
    subst he
    exact ⟨hsource, htarget⟩

theorem hasEnds_updateEdge (h : s.IsAligned) (u : EdgeUpdate) :
    (s.updateEdge id u).store.document.HasEnds := by
  refine (updateEdge_induction (P := fun t => t.IsAligned ∧ t.document.HasEnds) id u ⟨h, hends⟩
    fun t f hf ht => ⟨ht.1.changeEdge id hf, ?_⟩).2
  intro e he
  rw [ht.1.edges_changeEdge] at he
  obtain ⟨old, hold, rfl⟩ := List.mem_map.mp he
  split_ifs
  · rw [(hf old).2.1, (hf old).2.2]
    exact ht.2 old hold
  · exact ht.2 old hold

theorem hasEnds_deleteNode (h : s.IsAligned) : (s.deleteNode id).store.document.HasEnds := by
  by_cases hn : (s.node? id).isSome
  · have hloses := (h.deleteNode_of_isSome hn).2
    intro e he
    rw [hloses.edges, List.mem_filter, decide_eq_true_iff, Edge.Touches, not_or] at he
    obtain ⟨hmem, hsource, htarget⟩ := he
    obtain ⟨hs, ht⟩ := hends e hmem
    exact ⟨hloses.isSome_node?_iff.mpr ⟨hsource, hs⟩, hloses.isSome_node?_iff.mpr ⟨htarget, ht⟩⟩
  · unfold deleteNode
    rw [if_pos (by simpa using hn)]
    exact hends

theorem hasEnds_deleteEdge (h : s.IsAligned) : (s.deleteEdge id).store.document.HasEnds := by
  cases hedge : s.edge? id with
  | none =>
    unfold deleteEdge
    rw [hedge]
    exact hends
  | some e =>
    obtain ⟨he, rfl⟩ := h.mem_edges_iff.mp hedge
    rw [(h.deleteEdge_of_mem he).2.document]
    exact hends.mono (fun e he => (List.mem_filter.mp he).1) fun _ hn => hn

end Ends

end Store

/-- A new edge has an id that is not in use, and a document that comes in from outside is linked. -/
def StoreOp.IsAdmissible (s : Store) : StoreOp → Prop
  | addEdge id .. => ∀ e ∈ s.document.edges, e.id ≠ id
  | replaceAll document => document.IsLinked
  | _ => True

theorem StoreOp.IsAdmissible.keepsIds {s : Store} {op : StoreOp} (h : op.IsAdmissible s) :
    op.KeepsIds s := by
  cases op with
  | replaceAll document => exact (Document.isLinked_iff.mp h).1
  | _ => exact h

namespace Store

theorem hasEnds_run {s : Store} (h : s.IsAligned) (hends : s.document.HasEnds) {op : StoreOp}
    (hop : op.IsAdmissible s) : (op.run s).store.document.HasEnds := by
  cases op with
  | addNode id label shape position style =>
    refine hends.mono (fun e he => ?_) fun _ => isSome_node?_addNode id label shape position style
    rwa [← edges_addNode id label shape position style]
  | updateNode id update =>
    exact updateNode_induction (P := fun t => t.document.HasEnds) id update hends
      fun _ _ _ ht => ht.mono (fun _ he => he) fun _ => isSome_node?_changeNode.mpr
  | deleteNode id => exact hasEnds_deleteNode hends h
  | addEdge id source target label arrow => exact hasEnds_addEdge hends source target label arrow
  | updateEdge id update => exact hasEnds_updateEdge hends h update
  | deleteEdge id => exact hasEnds_deleteEdge hends h
  | replaceAll document =>
    have hlinked : document.IsLinked := hop
    change (s.replaceAll document).store.document.HasEnds
    rw [store_replaceAll s hlinked.keyed, document_ofDocument]
    exact hlinked.ends
  | setDirection direction =>
    refine hends.mono (fun e he => ?_) fun _ => (isSome_node?_setDirection direction).mpr
    rwa [← edges_setDirection direction]
  | setSelection nodes edges => exact hends
  | setFocus node =>
    unfold StoreOp.run setFocus
    dsimp only
    split_ifs <;> exact hends

/-- One operation keeps the graph consistent, also where it fails. -/
theorem IsConsistent.run {s : Store} (h : s.IsConsistent) {op : StoreOp} (hop : op.IsAdmissible s) :
    (op.run s).store.IsConsistent := by
  obtain ⟨haligned, hends⟩ := isConsistent_iff.mp h
  exact isConsistent_iff.mpr ⟨haligned.run hop.keepsIds, hasEnds_run haligned hends hop⟩

/-- The states that operations lead to, from the store of a linked document on. -/
inductive IsReachable : Store → Prop
  | start {d : Document} (h : d.IsLinked) : IsReachable (ofDocument d)
  | step {s : Store} {op : StoreOp} (hs : IsReachable s) (hop : op.IsAdmissible s) :
      IsReachable (op.run s).store

theorem IsReachable.isConsistent {s : Store} (h : s.IsReachable) : s.IsConsistent := by
  induction h with
  | start hd =>
    obtain ⟨hids, hends⟩ := Document.isLinked_iff.mp hd
    refine isConsistent_iff.mpr ⟨isAligned_ofDocument hids, ?_⟩
    rwa [document_ofDocument]
  | step _ hop ih => exact ih.run hop

/-- In every state that can be reached, the indexes say what the list of edges says, edges have
different ids and existing ends, and whatever is selected or has the focus exists. -/
theorem IsReachable.agrees {s : Store} (h : s.IsReachable) :
    (∀ x, s.edge? x = s.document.edge? x) ∧
    (∀ n, (s.edgesOf n).Nodup ∧
      ∀ e, e ∈ s.edgesOf n ↔ e ∈ s.document.edges ∧ (e.source = n ∨ e.target = n)) ∧
    (s.document.edges.map Edge.id).Nodup ∧
    (∀ e ∈ s.document.edges, (s.node? e.source).isSome ∧ (s.node? e.target).isSome) ∧
    (∀ issue ∈ s.document.issues, issue.severity ≠ .error) ∧
    (∀ id ∈ s.selectedNodes, (s.node? id).isSome) ∧
    (∀ id ∈ s.selectedEdges, (s.document.edge? id).isSome) ∧
    ∀ id ∈ s.focus, (s.node? id).isSome := by
  have hs := h.isConsistent
  have haligned := (isConsistent_iff.mp hs).1
  refine ⟨hs.edge?, fun n => ⟨haligned.nodup_edgesOf n, fun e => haligned.mem_edgesOf_iff⟩,
    hs.linked.edgeIds, hs.linked.ends, hs.linked.severity_ne_error, hs.selectedNodes, ?_, hs.focus⟩
  intro id hid
  rw [← hs.edge?]
  exact hs.selectedEdges id hid

/-- Two nodes with a loop at the first one and an edge between them. -/
def loopDocument : Document where
  kind := .flowchart
  direction := .topDown
  nodes := .ofValues Node.id [.stub "A", .stub "B"]
  edges :=
    [⟨"first", "A", "A", none, .plain, .standard⟩,
     ⟨"second", "A", "B", none, .plain, .standard⟩]

theorem isLinked_loopDocument : loopDocument.IsLinked where
  keyed := by
    unfold Document.KeyedById
    decide +kernel
  edgeIds := by decide +kernel
  ends := by decide +kernel

/-- A loop at the second node is added and selected together with the first node, which is deleted.
-/
def afterDelete : Store :=
  ((StoreOp.deleteNode "A").run
    ((StoreOp.setSelection ["A", "B"] ["first", "third"]).run
      ((StoreOp.addEdge "third" "B" "B" none (.ok .plain)).run
        (ofDocument loopDocument)).store).store).store

theorem agrees_afterDelete : afterDelete.IsReachable ∧ afterDelete.selectedEdges = ["third"] ∧
    (afterDelete.edgesOf "B").Nodup ∧ (afterDelete.document.edge? "third").isSome := by
  have hreach : afterDelete.IsReachable := by
    refine .step (.step (.step (.start isLinked_loopDocument) ?_) trivial) trivial
    unfold StoreOp.IsAdmissible
    decide +kernel
  obtain ⟨-, hedgesOf, -, -, -, -, hselected, -⟩ := hreach.agrees
  have hthird : afterDelete.selectedEdges = ["third"] := by decide +kernel
  exact ⟨hreach, hthird, (hedgesOf "B").1, hselected "third" (by simp [hthird])⟩

end Store
end Live
end Flowchart
