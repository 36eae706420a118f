import Flowchart.Live.Store
import Flowchart.Proofs.Graph.Keyed

/-! The indexes of the live graph: what taking an edge into them and out of them does to the edge
under an id and to the ids that are noted for a node. -/
namespace Flowchart

def Edge.Touches (e : Edge) (node : String) : Prop :=
  e.source = node ∨ e.target = node

instance (e : Edge) (node : String) : Decidable (e.Touches node) :=
  inferInstanceAs (Decidable (_ ∨ _))

namespace Live.Store

def noted (index : Keyed (List String)) (node : String) : List String :=
  (index.find? node).getD []

section Noted

variable {index : Keyed (List String)} {node edge n x : String}

theorem noted_attach : noted (attach index node edge) n =
    if node = n then
      if edge ∈ noted index n then noted index n else noted index n ++ [edge]
    else noted index n := by
  unfold noted attach
  rw [Keyed.find?_insert]
  by_cases hn : node = n
  · subst hn
    simp only [if_true, Option.getD_some, List.contains_iff_mem]
  · rw [if_neg hn, if_neg hn]

theorem noted_detach : noted (detach index node edge) n =
    if n = node then (noted index n).filter (· != edge) else noted index n := by
  unfold noted detach
  rw [Keyed.find?_modify]
  split_ifs
  · cases index.find? n <;> rfl
  · rfl

theorem mem_noted_attach :
    x ∈ noted (attach index node edge) n ↔ x ∈ noted index n ∨ node = n ∧ x = edge := by
  rw [noted_attach]
  split_ifs with hn he
  · constructor
    · exact .inl
    · rintro (hx | ⟨-, rfl⟩)
      · exact hx
      · exact he
  · simp [hn]
  · simp [hn]

theorem mem_noted_detach :
    x ∈ noted (detach index node edge) n ↔ x ∈ noted index n ∧ ¬(node = n ∧ x = edge) := by
  rw [noted_detach]
  split_ifs with hn
  · simp [hn]
  · simp [Ne.symm hn]

theorem nodup_noted_attach (h : (noted index n).Nodup) :
    (noted (attach index node edge) n).Nodup := by
  rw [noted_attach]
  split_ifs with hn he
  · exact h
  · rw [List.nodup_append]
    refine ⟨h, by simp, ?_⟩
    rintro a ha b hb rfl
    rw [List.mem_singleton] at hb
    exact he (hb ▸ ha)
  · exact h

theorem nodup_noted_detach (h : (noted index n).Nodup) :
    (noted (detach index node edge) n).Nodup := by
  rw [noted_detach]
  split_ifs
  · exact h.filter _
  · exact h

end Noted

variable {s : Store} {e : Edge} {n x : String}

theorem edge?_indexEdge : (s.indexEdge e).edge? x = if e.id = x then some e else s.edge? x :=
  Keyed.find?_insert _ _ _ _

theorem edge?_unindexEdge :
    (s.unindexEdge e).edge? x = if x = e.id then none else s.edge? x :=
  Keyed.find?_erase _ _ _

theorem mem_noted_indexEdge : x ∈ noted (s.indexEdge e).edgesByNode n ↔
    x ∈ noted s.edgesByNode n ∨ x = e.id ∧ e.Touches n := by
  rw [indexEdge, mem_noted_attach, mem_noted_attach, Edge.Touches]
  tauto

theorem mem_noted_unindexEdge : x ∈ noted (s.unindexEdge e).edgesByNode n ↔
    x ∈ noted s.edgesByNode n ∧ ¬(x = e.id ∧ e.Touches n) := by
  rw [unindexEdge, mem_noted_detach, mem_noted_detach, Edge.Touches]
  tauto

/-- What is noted for a node are the ids of the edges at it, each once. -/
structure IsIndexedAt (s : Store) (n : String) : Prop where
  mem_iff : ∀ x, x ∈ noted s.edgesByNode n ↔ ∃ e, s.edge? x = some e ∧ e.Touches n
  nodup : (noted s.edgesByNode n).Nodup

theorem IsIndexedAt.indexEdge (h : s.IsIndexedAt n) (hnew : s.edge? e.id = none) :
    (s.indexEdge e).IsIndexedAt n where
  mem_iff := by
    intro x
    rw [mem_noted_indexEdge, h.mem_iff, edge?_indexEdge]
    by_cases hx : e.id = x
    · subst hx
      simp [hnew]
    · simp [hx, Ne.symm hx]
  nodup := nodup_noted_attach (nodup_noted_attach h.nodup)

theorem IsIndexedAt.unindexEdge (h : s.IsIndexedAt n) (hold : s.edge? e.id = some e) :
    (s.unindexEdge e).IsIndexedAt n where
  mem_iff := by
    intro x
    rw [mem_noted_unindexEdge, h.mem_iff, edge?_unindexEdge]
    by_cases hx : x = e.id
    · subst hx
      simp [hold]
    · simp [hx]
  nodup := nodup_noted_detach (nodup_noted_detach h.nodup)

theorem unindexId_of_edge? (hk : Keyed.KeyedBy Edge.id s.edgeIndex) (id : String) :
    (∀ x, (s.unindexId id).edge? x = if x = id then none else s.edge? x) ∧
      Keyed.KeyedBy Edge.id (s.unindexId id).edgeIndex := by
  cases hf : s.edge? id with
  | none =>
    have hs : s.unindexId id = s := by
      unfold unindexId
      rw [show s.edgeIndex.find? id = none from hf]
    rw [hs]
    refine ⟨fun x => ?_, hk⟩
    split_ifs with hx
    · rw [hx, hf]
    · rfl
  | some e =>
    have hid : e.id = id := hk id e hf
    have hs : s.unindexId id = s.unindexEdge e := by
      unfold unindexId
      rw [show s.edgeIndex.find? id = some e from hf]
    rw [hs]
    refine ⟨fun x => ?_, ?_⟩
    · rw [edge?_unindexEdge, hid]
    · intro k v hv
      have hv' : (s.unindexEdge e).edge? k = some v := hv
      rw [edge?_unindexEdge] at hv'
      split_ifs at hv'
      exact hk k v hv'

theorem IsIndexedAt.unindexId (hk : Keyed.KeyedBy Edge.id s.edgeIndex) (h : s.IsIndexedAt n)
    (id : String) : (s.unindexId id).IsIndexedAt n := by
  unfold Store.unindexId
  split
  · next e hf =>
    have hid : e.id = id := hk id e hf
    subst hid
    exact h.unindexEdge hf
  · exact h

theorem edge?_foldl_unindexId (hk : Keyed.KeyedBy Edge.id s.edgeIndex) (ids : List String)
    (x : String) :
    (ids.foldl unindexId s).edge? x = if x ∈ ids then none else s.edge? x := by
  induction ids generalizing s with
  | nil => rfl
  | cons id ids ih =>
    obtain ⟨hstep, hk'⟩ := unindexId_of_edge? hk id
    rw [List.foldl_cons, ih hk', hstep]
    by_cases hx : x = id
    · simp [hx]
    · simp [hx]

theorem IsIndexedAt.foldl_unindexId (hk : Keyed.KeyedBy Edge.id s.edgeIndex)
    (h : s.IsIndexedAt n) (ids : List String) : (ids.foldl Store.unindexId s).IsIndexedAt n := by
  induction ids generalizing s with
  | nil => exact h
  | cons id ids ih => exact ih (unindexId_of_edge? hk id).2 (h.unindexId hk id)

theorem noted_foldl_unindexId_of_nil (h : noted s.edgesByNode n = []) (ids : List String) :
    noted (ids.foldl unindexId s).edgesByNode n = [] := by
  induction ids generalizing s with
  | nil => exact h
  | cons id ids ih =>
    apply ih
    unfold unindexId
    split
    · rw [List.eq_nil_iff_forall_not_mem]
      intro x hx
      have hmem := (mem_noted_unindexEdge.mp hx).1
      rw [h] at hmem
      cases hmem
    · exact h

/-- What the indexes have no part in. -/
def surface (s : Store) : Document × List String × List String × Option String :=
  (s.document, s.selectedNodes, s.selectedEdges, s.focus)

theorem surface_foldl {α : Type} {f : Store → α → Store} (hf : ∀ s a, (f s a).surface = s.surface)
    (l : List α) (s : Store) : (l.foldl f s).surface = s.surface := by
  induction l generalizing s with
  | nil => rfl
  | cons a l ih => rw [List.foldl_cons, ih, hf]

theorem surface_ofDocument (d : Document) : (ofDocument d).surface = (d, [], [], none) :=
  surface_foldl (f := indexEdge) (fun _ _ => rfl) d.edges _

theorem document_ofDocument (d : Document) : (ofDocument d).document = d :=
  congrArg Prod.fst (surface_ofDocument d)

theorem store_replaceAll (s : Store) {d : Document} (h : d.KeyedById) :
    (s.replaceAll d).store = ofDocument d := by
  change ofDocument { d with nodes := .ofValues Node.id d.nodes.values } = ofDocument d
  rw [(Keyed.keyedBy_iff.mpr h).ofValues_values]

theorem surface_unindexId (s : Store) (id : String) : (s.unindexId id).surface = s.surface := by
  unfold unindexId
  split <;> rfl

theorem indexed_foldl_indexEdge {edges : List Edge} (hn : (edges.map Edge.id).Nodup)
    (hnew : ∀ e ∈ edges, s.edge? e.id = none) (h : ∀ n, s.IsIndexedAt n) :
    (∀ x, (edges.foldl indexEdge s).edge? x = (edges.find? (·.id == x)).or (s.edge? x)) ∧
      ∀ n, (edges.foldl indexEdge s).IsIndexedAt n := by
  induction edges generalizing s with
  | nil => exact ⟨fun x => by simp, h⟩
  | cons e edges ih =>
    rw [List.map_cons, List.nodup_cons] at hn
    have he := hnew e (by simp)
    have hrest : ∀ e' ∈ edges, (s.indexEdge e).edge? e'.id = none := by
      intro e' he'
      have hne : e.id ≠ e'.id := fun heq => hn.1 (heq ▸ List.mem_map_of_mem he')
      rw [edge?_indexEdge, if_neg hne]
      exact hnew e' (List.mem_cons_of_mem _ he')
    obtain ⟨hfind, hindexed⟩ := ih hn.2 hrest fun n => (h n).indexEdge he
    refine ⟨fun x => ?_, hindexed⟩
    rw [List.foldl_cons, hfind, edge?_indexEdge]
    by_cases hx : e.id = x
    · have hnone : edges.find? (·.id == x) = none := by
        rw [List.find?_eq_none]
        intro e' he' hid
        rw [beq_iff_eq] at hid
        exact hn.1 (by rw [hx, ← hid]; exact List.mem_map_of_mem he')
      simp [hx, hnone]
    · simp [hx]

end Live.Store
end Flowchart
