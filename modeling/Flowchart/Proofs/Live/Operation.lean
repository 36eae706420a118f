import Flowchart.Proofs.Diagram.Unplaced
import Flowchart.Proofs.Live.EdgeIndex

/-! What operations on the live graph keep: the kind of the diagram stays unless the document is
replaced, and updates of nodes and edges are made of changes in place. -/
namespace Flowchart.Live

namespace Store

variable {s : Store}

/-- An update of a node is made of changes in place that keep its id. -/
theorem updateNode_induction {P : Store → Prop} (id : String) (u : NodeUpdate) (h : P s)
    (hstep : ∀ s f, (∀ node : Node, (f node).id = node.id) → P s → P (s.changeNode id f)) :
    P (s.updateNode id u).store := by
  unfold updateNode
  by_cases hn : (s.node? id).isNone
  · rw [if_pos hn]
    exact h
  rw [if_neg hn]
  extract_lets s₁
  have h₁ : P s₁ := by
    unfold s₁
    split
    · exact h
    · exact hstep _ _ (fun _ => rfl) h
  clear_value s₁
  split
  · exact h₁
  extract_lets s₂
  have h₂ : P s₂ := by
    unfold s₂
    split
    · exact hstep _ _ (fun _ => rfl) h₁
    · exact h₁
  clear_value s₂
  split
  · exact h₂
  extract_lets s₃ s₄
  have h₃ : P s₃ := by
    unfold s₃
    split
    · exact hstep _ _ (fun _ => rfl) h₂
    · exact h₂
  have h₄ : P s₄ := by
    unfold s₄
    split
    · exact h₃
    · exact hstep _ _ (fun _ => rfl) h₃
  split_ifs <;> exact h₄

theorem updateEdge_induction {P : Store → Prop} (id : String) (u : EdgeUpdate) (h : P s)
    (hstep : ∀ s f,
      (∀ e : Edge, (f e).id = e.id ∧ (f e).source = e.source ∧ (f e).target = e.target) →
      P s → P (s.changeEdge id f)) :
    P (s.updateEdge id u).store := by
  unfold updateEdge
  by_cases hn : (s.edge? id).isNone
  · rw [if_pos hn]
    exact h
  rw [if_neg hn]
  extract_lets s₁
  have h₁ : P s₁ := by
    unfold s₁
    split
    · exact h
    · exact hstep _ _ (fun _ => ⟨rfl, rfl, rfl⟩) h
  clear_value s₁
  split
  · exact h₁
  extract_lets s₂
  have h₂ : P s₂ := by
    unfold s₂
    split
    · exact hstep _ _ (fun _ => ⟨rfl, rfl, rfl⟩) h₁
    · exact h₁
  clear_value s₂
  split
  · exact h₂
  extract_lets s₃
  unfold s₃
  split
  · exact hstep _ _ (fun _ => ⟨rfl, rfl, rfl⟩) h₂
  · exact h₂

theorem document_deleteNode_kind (s : Store) (id : String) :
    (s.deleteNode id).store.document.kind = s.document.kind := by
  unfold deleteNode
  split_ifs
  · rfl
  extract_lets ids s₁ s₂ s₃ s₄ s₅
  have hsurface := surface_foldl surface_unindexId ids s₃
  simp only [surface, Prod.mk.injEq] at hsurface
  change s₄.document.kind = _
  rw [hsurface.1]
  rfl

/-- The kind of the diagram changes only with the whole document. -/
theorem kind_run (s : Store) {op : StoreOp} (hop : ∀ d, op ≠ .replaceAll d) :
    (op.run s).store.document.kind = s.document.kind := by
  cases op with
  | addNode id label shape position style =>
    unfold StoreOp.run addNode
    dsimp only
    split <;> rfl
  | updateNode id update =>
    exact updateNode_induction (P := fun t => t.document.kind = s.document.kind) id update rfl
      fun _ _ _ h => h
  | deleteNode id => exact document_deleteNode_kind s id
  | addEdge id source target label arrow =>
    unfold StoreOp.run addEdge
    dsimp only
    split_ifs
    · rfl
    · rfl
    · rfl
    · split <;> rfl
  | updateEdge id update =>
    exact updateEdge_induction (P := fun t => t.document.kind = s.document.kind) id update rfl
      fun _ _ _ h => h
  | deleteEdge id =>
    unfold StoreOp.run deleteEdge
    dsimp only
    split <;> rfl
  | replaceAll document => exact absurd rfl (hop document)
  | setDirection direction =>
    unfold StoreOp.run setDirection
    dsimp only
    split <;> rfl
  | setSelection nodes edges => rfl
  | setFocus node =>
    unfold StoreOp.run setFocus
    dsimp only
    split_ifs <;> rfl

theorem isFlow_run (hs : s.document.kind.isFlow = true) {op : StoreOp}
    (hop : ∀ d, op = .replaceAll d → d.kind.isFlow = true) :
    (op.run s).store.document.kind.isFlow = true := by
  by_cases hreplace : ∃ d, op = .replaceAll d
  · obtain ⟨d, rfl⟩ := hreplace
    change (ofDocument
      { d with nodes := .ofValues Node.id d.nodes.values }).document.kind.isFlow = true
    rw [document_ofDocument]
    exact hop d rfl
  · rw [kind_run s fun d hd => hreplace ⟨d, hd⟩]
    exact hs

theorem unplaced_changeNode_position (s : Store) (id : String) (position : Position) :
    (s.changeNode id fun node => { node with position := some position }).document.unplaced =
      s.document.unplaced := by
  have hnodes : (s.document.nodes.modify id fun node =>
      { node with position := some position }).mapValues (fun _ => Node.unplaced) =
        s.document.nodes.mapValues fun _ => Node.unplaced := by
    refine Keyed.ext_find? (by simp) fun k => ?_
    rw [Keyed.find?_mapValues, Keyed.find?_modify, Keyed.find?_mapValues]
    split_ifs
    · rw [Option.map_map]
      rfl
    · rfl
  unfold Document.unplaced changeNode withNodes
  rw [hnodes]

end Store
end Flowchart.Live
