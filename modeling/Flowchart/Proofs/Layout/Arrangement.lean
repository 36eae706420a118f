import Flowchart.Proofs.Graph.Keyed
import Flowchart.Proofs.Layout.Spread
import Flowchart.Proofs.Number.Whole

/-! The nodes of a document that is arranged stand at their places: all coordinates are whole numbers, and
none is so large that rounding it to a floating-point number would change it. -/
namespace Flowchart

namespace Layout.Skeleton

variable {g : Skeleton} {d : Direction} {id : String}

/-- Every rank up to the greatest takes a node of its own. -/
theorem greatestRank_lt_length (hne : g.ids ≠ []) : g.greatestRank < g.ids.length := by
  have hranks : List.range (g.greatestRank + 1) ⊆ g.ids.map g.rankOf := by
    intro rank hrank
    have hle : rank ≤ g.greatestRank := Nat.le_of_lt_succ (List.mem_range.mp hrank)
    obtain ⟨id, hid, hrankOf⟩ := exists_rankOf_of_le hne hle
    exact List.mem_map.mpr ⟨id, hid, hrankOf⟩
  have hlength := (List.subperm_of_subset List.nodup_range hranks).length_le
  rwa [List.length_range, List.length_map] at hlength

theorem natAbs_along_le (h : id ∈ g.ids) :
    ((g.placeOf d id).along d).natAbs ≤ 100 + g.ids.length * 250 := by
  have hspacing : (rankSpacing d).natAbs ≤ 250 := by cases d <;> decide
  have hrow : g.rowNumber d (g.rankOf id) ≤ g.ids.length :=
    (rowNumber_le (rankOf_le_greatestRank h)).trans
      (greatestRank_lt_length (List.ne_nil_of_mem h)).le
  have hoffset : (g.rowNumber d (g.rankOf id) * rankSpacing d).natAbs ≤ g.ids.length * 250 := by
    rw [Int.natAbs_mul, Int.natAbs_natCast]
    exact Nat.mul_le_mul hrow hspacing
  rw [along_placeOf h, origin]
  omega

theorem natAbs_across_le (h : id ∈ g.ids) :
    ((g.placeOf d id).across d).natAbs ≤ 100 + g.ids.length * 250 := by
  have hspacing : (halfSpacing d).natAbs ≤ 250 := by cases d <;> decide
  have hlength : (g.row (g.rankOf id)).length ≤ g.ids.length := List.length_filter_le _ _
  have hindex : (g.row (g.rankOf id)).idxOf id < (g.row (g.rankOf id)).length :=
    List.idxOf_lt_length_of_mem (mem_row.mpr ⟨h, rfl⟩)
  have hoffset : ((2 * ((g.row (g.rankOf id)).idxOf id : Int) -
      (((g.row (g.rankOf id)).length : Int) - 1)) * halfSpacing d).natAbs ≤ g.ids.length * 250 := by
    rw [Int.natAbs_mul]
    exact Nat.mul_le_mul (by omega) hspacing
  rw [across_placeOf, origin]
  omega

theorem natAbs_placeOf_le (h : id ∈ g.ids) :
    (g.placeOf d id).x.natAbs ≤ 100 + g.ids.length * 250 ∧
      (g.placeOf d id).y.natAbs ≤ 100 + g.ids.length * 250 := by
  have halong := natAbs_along_le (d := d) h
  have hacross := natAbs_across_le (d := d) h
  unfold Place.along at halong
  unfold Place.across at hacross
  split_ifs at halong hacross
  · exact ⟨halong, hacross⟩
  · exact ⟨hacross, halong⟩

end Layout.Skeleton

open Layout

/-- The node stands exactly at a place. -/
def Node.StandsAt (node : Node) (p : Place) : Prop :=
  ∃ position, node.position = some position ∧
    position.x.toInt? = some p.x ∧ position.y.toInt? = some p.y

theorem Node.standsAt_toPosition (node : Node) {p : Place} (hx : p.x.natAbs < 2 ^ 53)
    (hy : p.y.natAbs < 2 ^ 53) : { node with position := some p.toPosition }.StandsAt p :=
  ⟨_, rfl, Binary64.toInt?_ofInt hx, Binary64.toInt?_ofInt hy⟩

namespace Document

variable {d : Document} {direction : Direction} {node : Node}

theorem nodup_ids_skeleton (hkeyed : d.KeyedById) : d.skeleton.ids.Nodup := by
  have hids : d.skeleton.ids = d.nodes.keys := Keyed.KeyedBy.map_values (Keyed.keyedBy_iff.mpr hkeyed)
  rw [hids]
  exact d.nodes.nodup_keys

/-- Every node of a document that is arranged stands at its place. -/
theorem standsAt_arranged (hkeyed : d.KeyedById) (hsize : d.nodes.values.length ≤ 2 ^ 45)
    (h : node ∈ (d.arranged direction).nodes.values) :
    ∃ p, (d.skeleton.places direction).lookup node.id = some p ∧ node.StandsAt p := by
  obtain ⟨old, hold, place, hplace, rfl⟩ := exists_of_mem_arranged h
  have hid : old.id ∈ d.skeleton.ids := List.mem_map_of_mem hold
  have hlength : d.skeleton.ids.length ≤ 2 ^ 45 := by rwa [skeleton, List.length_map]
  have hlookup := Skeleton.lookup_places (d := direction) (nodup_ids_skeleton hkeyed) hid
  obtain ⟨hx, hy⟩ := Skeleton.natAbs_placeOf_le (d := direction) hid
  rw [Option.some.inj (hlookup.symm.trans hplace)] at hx hy
  exact ⟨place, hplace, old.standsAt_toPosition (by omega) (by omega)⟩

theorem map_id_values_arranged (d : Document) (direction : Direction) :
    (d.arranged direction).nodes.values.map (·.id) = d.skeleton.ids := by
  simp [arranged, skeleton, Keyed.values, Keyed.mapValues, Function.comp_def]

theorem standsAt_placeOf (hkeyed : d.KeyedById) (hsize : d.nodes.values.length ≤ 2 ^ 45)
    (h : node ∈ (d.arranged direction).nodes.values) :
    node.StandsAt (d.skeleton.placeOf direction node.id) := by
  have hid : node.id ∈ d.skeleton.ids := map_id_values_arranged d direction ▸ List.mem_map_of_mem h
  obtain ⟨p, hp, hstands⟩ := standsAt_arranged hkeyed hsize h
  rw [Skeleton.lookup_places (nodup_ids_skeleton hkeyed) hid] at hp
  cases hp
  exact hstands

/-- No two nodes of it overlap. -/
theorem pairwise_apart_arranged (hkeyed : d.KeyedById) (hsize : d.nodes.values.length ≤ 2 ^ 45) :
    (d.arranged direction).nodes.values.Pairwise fun first second => ∃ p q,
      first.StandsAt p ∧ second.StandsAt q ∧
        (rankSpacing direction ≤ |p.along direction - q.along direction| ∨
          siblingSpacing direction ≤ |p.across direction - q.across direction|) := by
  have hapart := Skeleton.pairwise_apart (d := direction) (nodup_ids_skeleton hkeyed)
  rw [← map_id_values_arranged d direction, List.pairwise_map] at hapart
  refine hapart.imp_of_mem fun {first second} hfirst hsecond hroom => ?_
  exact ⟨_, _, standsAt_placeOf hkeyed hsize hfirst, standsAt_placeOf hkeyed hsize hsecond, hroom⟩

end Document
end Flowchart
