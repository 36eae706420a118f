import Flowchart.Proofs.Live.Consistency

/-! Whatever is done to the live graph, and also where edges share an id: the index holds the last
edge with each id. -/
namespace Flowchart.Live.Store

def lastEdge? (edges : List Edge) (x : String) : Option Edge :=
  edges.reverse.find? (·.id == x)

section Edges

variable {edges : List Edge} {e : Edge} {id x : String}

theorem lastEdge?_cons : lastEdge? (e :: edges) x =
    (lastEdge? edges x).or (if e.id = x then some e else none) := by
  rw [lastEdge?, lastEdge?, List.reverse_cons, List.find?_append]
  by_cases h : e.id = x <;> simp [h]

theorem lastEdge?_concat : lastEdge? (edges ++ [e]) x =
    if e.id = x then some e else lastEdge? edges x := by
  rw [lastEdge?, lastEdge?, List.reverse_append, List.reverse_singleton, List.singleton_append]
  by_cases h : e.id = x <;> simp [h]

theorem id_eq_of_lastEdge? (h : lastEdge? edges x = some e) : e.id = x := by
  simpa using List.find?_some h

theorem isSome_lastEdge?_iff : (lastEdge? edges x).isSome ↔ edges.any (·.id == x) = true := by
  rw [lastEdge?, List.find?_isSome, List.any_eq_true]
  simp

theorem lastEdge?_filter (p : String → Bool) :
    lastEdge? (edges.filter fun e => p e.id) x = if p x then lastEdge? edges x else none := by
  rw [lastEdge?, ← List.filter_reverse, find?_filter_id, lastEdge?]

theorem lastEdge?_changeLast {f : Edge → Edge} (hf : ∀ e, (f e).id = e.id) :
    lastEdge? (changeLast id f edges) x =
      if x = id then (lastEdge? edges x).map f else lastEdge? edges x := by
  induction edges with
  | nil => simp [changeLast, lastEdge?]
  | cons e edges ih =>
    rw [changeLast]
    by_cases hany : edges.any (·.id == id) = true
    · obtain ⟨last, hlast⟩ := Option.isSome_iff_exists.mp (isSome_lastEdge?_iff.mpr hany)
      rw [if_pos hany, lastEdge?_cons, lastEdge?_cons, ih]
      by_cases hx : x = id
      · subst hx
        simp [hlast]
      · simp [hx]
    · have hnone : lastEdge? edges id = none := by
        rwa [← Option.not_isSome_iff_eq_none, isSome_lastEdge?_iff]
      rw [if_neg hany]
      by_cases hx : x = id
      · subst hx
        by_cases hid : e.id = x <;> simp [lastEdge?_cons, hnone, hid, hf]
      · by_cases hid : e.id = id
        · simp [lastEdge?_cons, hid, hf, hx, Ne.symm hx]
        · simp [hid, hx]

theorem changeLast_eq_self {f : Edge → Edge} (h : ∀ e, lastEdge? edges id = some e → f e = e) :
    changeLast id f edges = edges := by
  induction edges with
  | nil => rfl
  | cons e edges ih =>
    simp only [lastEdge?_cons] at h
    rw [changeLast]
    split_ifs with hany hid
    · obtain ⟨last, hlast⟩ := Option.isSome_iff_exists.mp (isSome_lastEdge?_iff.mpr hany)
      rw [ih fun e he => h e (by simp [he])]
    · have hnone : lastEdge? edges id = none := by
        rwa [← Option.not_isSome_iff_eq_none, isSome_lastEdge?_iff]
      rw [h e (by simp [hnone, hid])]
    · rfl

theorem changeLast_changeLast {f g : Edge → Edge} (hf : ∀ e, (f e).id = e.id) (edges : List Edge) :
    changeLast id g (changeLast id f edges) = changeLast id (g ∘ f) edges := by
  have hids : ∀ edges : List Edge,
      (changeLast id f edges).any (·.id == id) = edges.any (·.id == id) := by
    intro edges
    rw [Bool.eq_iff_iff, ← isSome_lastEdge?_iff, ← isSome_lastEdge?_iff, lastEdge?_changeLast hf,
      if_pos rfl, Option.isSome_map]
  induction edges with
  | nil => rfl
  | cons e edges ih =>
    by_cases hany : edges.any (·.id == id) = true
    · simp only [changeLast, hany, hids, if_true, ih]
    · by_cases hid : e.id = id <;> simp [changeLast, hany, hid, hf]

end Edges

variable {s : Store}

/-- The index holds the last edge with each id. -/
def IndexesLast (s : Store) : Prop :=
  ∀ x, s.edge? x = lastEdge? s.document.edges x

theorem IndexesLast.keyedBy (h : s.IndexesLast) : Keyed.KeyedBy Edge.id s.edgeIndex :=
  fun x _ hf => id_eq_of_lastEdge? ((h x).symm.trans hf)

theorem edge?_foldl_indexEdge (edges : List Edge) (x : String) :
    (edges.foldl indexEdge s).edge? x = (lastEdge? edges x).or (s.edge? x) := by
  induction edges generalizing s with
  | nil => simp [lastEdge?]
  | cons e edges ih =>
    rw [List.foldl_cons, ih, edge?_indexEdge, lastEdge?_cons]
    cases lastEdge? edges x with
    | some last => rfl
    | none => by_cases h : e.id = x <;> simp [h]

theorem indexesLast_ofDocument (d : Document) : (ofDocument d).IndexesLast := by
  intro x
  rw [document_ofDocument, ofDocument, edge?_foldl_indexEdge]
  simp [Store.edge?]

namespace IndexesLast

variable (h : s.IndexesLast)
include h

theorem changeEdge (id : String) {f : Edge → Edge} (hf : ∀ e, (f e).id = e.id) :
    (s.changeEdge id f).IndexesLast := by
  intro x
  have hindex : (s.changeEdge id f).edge? x = if x = id then (s.edge? x).map f else s.edge? x :=
    Keyed.find?_modify _ _ _ _
  rw [hindex, h x]
  exact (lastEdge?_changeLast hf).symm

theorem deleteNode (id : String) : (s.deleteNode id).store.IndexesLast := by
  unfold Store.deleteNode
  split_ifs
  · exact h
  extract_lets ids s₁ s₂ s₃ s₄ s₅
  have hsurface := surface_foldl surface_unindexId ids s₃
  simp only [surface, Prod.mk.injEq] at hsurface
  intro x
  have hindex : s₄.edge? x = if x ∈ ids then none else s.edge? x :=
    edge?_foldl_unindexId (s := s₃) h.keyedBy ids x
  have hdocument : s₄.document.edges = s.document.edges.filter fun e => !ids.contains e.id := by
    rw [hsurface.1]
    rfl
  change s₄.edge? x = lastEdge? s₄.document.edges x
  rw [hindex, hdocument, lastEdge?_filter fun id => !ids.contains id, h x]
  by_cases hx : x ∈ ids <;> simp [hx]

theorem addEdge (id source target : String) (label : Option String) (arrow : ArrowChoice) :
    (s.addEdge id source target label arrow).store.IndexesLast := by
  unfold Store.addEdge
  split_ifs
  · exact h
  · exact h
  · exact h
  cases arrow with
  | error bad => exact h
  | ok kind =>
    intro x
    change (Store.indexEdge _ _).edge? x = lastEdge? (s.document.edges ++ [_]) x
    rw [edge?_indexEdge, lastEdge?_concat, ← h x]
    rfl

theorem deleteEdge (id : String) : (s.deleteEdge id).store.IndexesLast := by
  unfold Store.deleteEdge
  split
  · exact h
  · next edge hedge =>
    have hid : edge.id = id := h.keyedBy id edge hedge
    intro x
    change (Store.unindexEdge _ edge).edge? x = lastEdge? (s.document.edges.filter (·.id != id)) x
    rw [edge?_unindexEdge, hid, lastEdge?_filter (· != id), ← h x]
    by_cases hx : x = id
    · simp [hx]
    · simp [hx, Store.edge?, withEdges]

/-- Every operation keeps it, also where it fails. -/
theorem run (op : StoreOp) : (op.run s).store.IndexesLast := by
  cases op with
  | addNode id label shape position style =>
    unfold StoreOp.run Store.addNode
    dsimp only
    split <;> exact h
  | updateNode id update =>
    exact updateNode_induction (P := IndexesLast) id update h fun _ _ _ h => h
  | deleteNode id => exact h.deleteNode id
  | addEdge id source target label arrow => exact h.addEdge id source target label arrow
  | updateEdge id update =>
    exact updateEdge_induction id update h fun _ _ hf h => h.changeEdge id fun e => (hf e).1
  | deleteEdge id => exact h.deleteEdge id
  | replaceAll document => exact indexesLast_ofDocument _
  | setDirection direction =>
    unfold StoreOp.run Store.setDirection
    dsimp only
    split <;> exact h
  | setSelection nodes edges => exact h
  | setFocus node =>
    unfold StoreOp.run Store.setFocus
    dsimp only
    split_ifs <;> exact h

end IndexesLast

/-- The states that any operations lead to, failing ones included, from the store of any document on.
-/
inductive Arises : Store → Prop
  | start (d : Document) : Arises (ofDocument d)
  | step {s : Store} (h : Arises s) (op : StoreOp) : Arises (op.run s).store

theorem Arises.indexesLast (h : s.Arises) : s.IndexesLast := by
  induction h with
  | start d => exact indexesLast_ofDocument d
  | step _ op ih => exact ih.run op

end Flowchart.Live.Store
