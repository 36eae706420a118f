import Flowchart.Layout.Places
import Mathlib.Tactic.Common

/-! Every node of a graph gets a rank and a place, and no other id does. -/
namespace Flowchart

namespace Layout.Skeleton

theorem mem_distinct {ids : List String} {id : String} : id ∈ distinct ids ↔ id ∈ ids := by
  have hfold : ∀ seen : List String,
      id ∈ ids.foldl (fun seen id => if seen.contains id then seen else seen ++ [id]) seen ↔
        id ∈ seen ∨ id ∈ ids := by
    induction ids with
    | nil => simp
    | cons first ids ih =>
      intro seen
      rw [List.foldl_cons, ih, List.mem_cons]
      split_ifs with h
      · have hfirst : first ∈ seen := List.contains_iff_mem.mp h
        constructor
        · rintro (hs | hr)
          exacts [.inl hs, .inr (.inr hr)]
        · rintro (hs | rfl | hr)
          exacts [.inl hs, .inl hfirst, .inr hr]
      · simp [or_assoc]
  rw [distinct, hfold]
  simp

theorem nodup_distinct (ids : List String) : (distinct ids).Nodup := by
  have hfold : ∀ seen : List String, seen.Nodup →
      (ids.foldl (fun seen id => if seen.contains id then seen else seen ++ [id]) seen).Nodup := by
    induction ids with
    | nil => exact fun _ h => h
    | cons first ids ih =>
      intro seen hseen
      rw [List.foldl_cons]
      split_ifs with h
      · exact ih seen hseen
      · have hfirst : first ∉ seen := fun hm => h (List.contains_iff_mem.mpr hm)
        have hlonger : (first :: seen).Nodup := List.nodup_cons.mpr ⟨hfirst, hseen⟩
        exact ih _ ((List.perm_append_singleton first seen).nodup_iff.mpr hlonger)
  exact hfold [] List.nodup_nil

theorem distinct_eq_self {ids : List String} (h : ids.Nodup) : distinct ids = ids := by
  have hfold : ∀ seen : List String, (seen ++ ids).Nodup →
      ids.foldl (fun seen id => if seen.contains id then seen else seen ++ [id]) seen =
        seen ++ ids := by
    clear h
    induction ids with
    | nil => simp
    | cons first ids ih =>
      intro seen hseen
      have hfirst : first ∉ seen := by
        intro hmem
        exact (List.nodup_append.mp hseen).2.2 first hmem first List.mem_cons_self rfl
      have hnext : (seen ++ [first] ++ ids).Nodup := by
        rw [List.append_assoc]
        exact hseen
      rw [List.foldl_cons, if_neg fun hc => hfirst (List.contains_iff_mem.mp hc), ih _ hnext,
        List.append_assoc]
      rfl
  exact hfold [] h

theorem map_fst_places (g : Skeleton) (d : Direction) :
    (g.places d).map (·.1) = distinct g.ids := by
  simp [places, ranks, Function.comp_def]

theorem isSome_lookup_places (g : Skeleton) (d : Direction) (id : String) :
    ((g.places d).lookup id).isSome ↔ id ∈ g.ids := by
  rw [← mem_distinct, ← map_fst_places g d, List.lookup_isSome_iff, List.mem_map]
  exact exists_congr fun entry => and_congr_right fun _ => by rw [beq_iff_eq, eq_comm]

end Layout.Skeleton

/-- Arranging a document moves each of its nodes to its place and leaves everything else. -/
theorem Document.exists_of_mem_arranged {d : Document} {direction : Direction} {node : Node}
    (h : node ∈ (d.arranged direction).nodes.values) : ∃ old ∈ d.nodes.values, ∃ place,
      (d.skeleton.places direction).lookup old.id = some place ∧
        node = { old with position := some place.toPosition } := by
  simp only [arranged, Keyed.values, Keyed.mapValues, List.map_map, List.mem_map,
    Function.comp_apply] at h
  obtain ⟨⟨key, old⟩, hmem, rfl⟩ := h
  have hold : old ∈ d.nodes.values := List.mem_map.mpr ⟨_, hmem, rfl⟩
  have hid : old.id ∈ d.skeleton.ids := List.mem_map_of_mem hold
  obtain ⟨place, hplace⟩ := Option.isSome_iff_exists.mp
    ((Layout.Skeleton.isSome_lookup_places _ direction _).mpr hid)
  exact ⟨old, hold, place, hplace, by simp [hplace]⟩

end Flowchart
