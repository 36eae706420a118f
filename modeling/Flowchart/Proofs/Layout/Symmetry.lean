import Flowchart.Proofs.Layout.Spread
import Mathlib.Algebra.BigOperators.Group.List.Basic
import Mathlib.Algebra.Order.Ring.Rat
import Mathlib.Tactic.Ring

/-! The directions show one layout. Upwards is downwards mirrored, leftwards is rightwards mirrored, and
rightwards is downwards turned and stretched; in every row the nodes are centred around the axis. -/
namespace Flowchart.Layout.Skeleton

variable {g : Skeleton} {d : Direction} {id : String}

section Directions

theorem x_topBottom (g : Skeleton) (id : String) : (g.placeOf .topBottom id).x =
    100 + (2 * ((g.row (g.rankOf id)).idxOf id : Int) - ((g.row (g.rankOf id)).length - 1)) * 90 :=
  rfl

theorem y_topBottom (g : Skeleton) (id : String) :
    (g.placeOf .topBottom id).y = 100 + g.rankOf id * 150 :=
  rfl

theorem x_leftRight (g : Skeleton) (id : String) :
    (g.placeOf .leftRight id).x = 100 + g.rankOf id * 250 :=
  rfl

theorem y_leftRight (g : Skeleton) (id : String) : (g.placeOf .leftRight id).y =
    100 + (2 * ((g.row (g.rankOf id)).idxOf id : Int) - ((g.row (g.rankOf id)).length - 1)) * 60 :=
  rfl

/-- Upwards the rows come in the opposite order. -/
theorem placeOf_bottomTop (g : Skeleton) (id : String) :
    (g.placeOf .bottomTop id).x = (g.placeOf .topBottom id).x ∧
      (g.placeOf .bottomTop id).y + (g.placeOf .topBottom id).y = 200 + 150 * g.greatestRank := by
  have hy : (g.placeOf .bottomTop id).y = 100 + ((g.greatestRank : Int) - g.rankOf id) * 150 := rfl
  refine ⟨rfl, ?_⟩
  rw [hy, y_topBottom]
  ring

/-- Leftwards the columns come in the opposite order. -/
theorem placeOf_rightLeft (g : Skeleton) (id : String) :
    (g.placeOf .rightLeft id).y = (g.placeOf .leftRight id).y ∧
      (g.placeOf .rightLeft id).x + (g.placeOf .leftRight id).x = 200 + 250 * g.greatestRank := by
  have hx : (g.placeOf .rightLeft id).x = 100 + ((g.greatestRank : Int) - g.rankOf id) * 250 := rfl
  refine ⟨rfl, ?_⟩
  rw [hx, x_leftRight]
  ring

/-- Rightwards rows are columns, with spacings of their own. -/
theorem placeOf_leftRight (g : Skeleton) (id : String) :
    (((g.placeOf .leftRight id).x : ℚ) - 100) / 250 =
        (((g.placeOf .topBottom id).y : ℚ) - 100) / 150 ∧
      (((g.placeOf .leftRight id).y : ℚ) - 100) / 120 =
        (((g.placeOf .topBottom id).x : ℚ) - 100) / 180 := by
  rw [x_leftRight, y_leftRight, x_topBottom, y_topBottom]
  push_cast
  constructor <;> ring

end Directions

section Means

/-- The coordinates of the nodes of one rank in their row. -/
def rowCoordinates (g : Skeleton) (d : Direction) (rank : Nat) : List ℚ :=
  ((g.places d).filter fun entry => (entry.1, rank) ∈ g.ranks).map (·.2.across d)

theorem rowCoordinates_eq_map (hnodup : g.ids.Nodup) (d : Direction) (rank : Nat) :
    g.rowCoordinates d rank = (g.row rank).map fun id => ((g.placeOf d id).across d : ℚ) := by
  have hrow : g.ids.filter (fun id => (id, rank) ∈ g.ranks) = g.row rank := by
    refine List.filter_congr fun id hid => ?_
    simp only [mem_ranks, and_iff_right hid]
    rfl
  rw [rowCoordinates, places_eq_map hnodup, List.filter_map, List.map_map, ← hrow]
  rfl

theorem map_idxOf_eq_range {ids : List String} (h : ids.Nodup) :
    ids.map (ids.idxOf ·) = List.range ids.length := by
  refine List.ext_getElem (by simp) fun i hi _ => ?_
  rw [List.getElem_map, List.getElem_range]
  exact h.idxOf_getElem i _

theorem sum_map_range (first step : ℚ) (n : Nat) :
    ((List.range n).map fun i : Nat => first + i * step).sum = n * first + n * (n - 1) / 2 * step := by
  induction n with
  | zero => simp
  | succ n ih =>
    rw [List.range_succ, List.map_append, List.sum_append, ih, List.map_singleton,
      List.sum_singleton]
    push_cast
    ring

theorem sum_rowCoordinates (hnodup : g.ids.Nodup) (d : Direction) (rank : Nat) :
    (g.rowCoordinates d rank).sum = 100 * (g.rowCoordinates d rank).length := by
  have hcoordinates : g.rowCoordinates d rank =
      (List.range (g.row rank).length).map fun i : Nat =>
        (100 - ((g.row rank).length - 1) * halfSpacing d : ℚ) + i * (2 * halfSpacing d) := by
    rw [rowCoordinates_eq_map hnodup, ← map_idxOf_eq_range (nodup_row hnodup rank), List.map_map]
    refine List.map_congr_left fun id hid => ?_
    obtain ⟨-, hrank⟩ := mem_row.mp hid
    rw [across_placeOf, hrank, origin, Function.comp_apply]
    push_cast
    ring
  rw [hcoordinates, sum_map_range, List.length_map, List.length_range]
  ring

theorem mean_rowCoordinates (hnodup : g.ids.Nodup) (d : Direction) {rank : Nat}
    (h : rank ∈ g.ranks.map (·.2)) :
    (g.rowCoordinates d rank).sum / (g.rowCoordinates d rank).length = 100 := by
  obtain ⟨id, hid, hrank⟩ := mem_map_ranks.mp h
  have hrow : g.row rank ≠ [] := List.ne_nil_of_mem (mem_row.mpr ⟨hid, hrank⟩)
  have hlength : ((g.rowCoordinates d rank).length : ℚ) ≠ 0 := by
    rw [rowCoordinates_eq_map hnodup, List.length_map, Nat.cast_ne_zero]
    exact fun hzero => hrow (List.length_eq_zero_iff.mp hzero)
  rw [sum_rowCoordinates hnodup, mul_div_assoc, div_self hlength, mul_one]

end Means

/-- Both names of downwards give the same places. Upwards every node keeps its place in the row and the
rows are mirrored, and so it is leftwards against rightwards, where the rows are columns; measured in
spacings, rightwards and downwards place every node alike. In each direction the coordinates in a row
have the axis as their mean. -/
theorem isMirrored_places (g : Skeleton) (hne : g.ids ≠ []) (hnodup : g.ids.Nodup) :
    g.places .topBottom = g.places .topDown ∧
    ∃ greatest : Nat, IsGreatest {rank | rank ∈ g.ranks.map (·.2)} greatest ∧
      (∀ id ∈ g.ids, ∃ down up right left : Place,
        (g.places .topBottom).lookup id = some down ∧ (g.places .bottomTop).lookup id = some up ∧
        (g.places .leftRight).lookup id = some right ∧ (g.places .rightLeft).lookup id = some left ∧
        (up.x = down.x ∧ up.y + down.y = 200 + 150 * greatest) ∧
        (left.y = right.y ∧ left.x + right.x = 200 + 250 * greatest) ∧
        ((right.x : ℚ) - 100) / 250 = ((down.y : ℚ) - 100) / 150 ∧
        ((right.y : ℚ) - 100) / 120 = ((down.x : ℚ) - 100) / 180) ∧
      ∀ d, ∀ rank ∈ g.ranks.map (·.2),
        (g.rowCoordinates d rank).sum / (g.rowCoordinates d rank).length = 100 := by
  refine ⟨rfl, g.greatestRank, isGreatest_greatestRank hne, ?_, ?_⟩
  · intro id hid
    exact ⟨_, _, _, _, lookup_places hnodup hid, lookup_places hnodup hid, lookup_places hnodup hid,
      lookup_places hnodup hid, placeOf_bottomTop g id, placeOf_rightLeft g id, placeOf_leftRight g id⟩
  · intro d rank hrank
    exact mean_rowCoordinates hnodup d hrank

/-- Of the three nodes in the column of the root one stands on the axis, and the others as far above it
as below. -/
theorem isMirrored_places_fan :
    (fan.ids ≠ [] ∧ fan.ids.Nodup) ∧ fan.places .topBottom = fan.places .topDown ∧
      fan.rowCoordinates .rightLeft 0 = [-20, 100, 220] ∧
      (fan.rowCoordinates .rightLeft 0).sum / (fan.rowCoordinates .rightLeft 0).length = 100 := by
  have hnodup : fan.ids.Nodup := by decide
  obtain ⟨hsame, greatest, -, -, hmean⟩ :=
    isMirrored_places fan (List.cons_ne_nil _ _) hnodup
  have hrank : 0 ∈ fan.ranks.map (·.2) := by decide +kernel
  exact ⟨⟨List.cons_ne_nil _ _, hnodup⟩, hsame, by decide +kernel, hmean .rightLeft 0 hrank⟩

end Flowchart.Layout.Skeleton
