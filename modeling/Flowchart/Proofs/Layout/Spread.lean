import Flowchart.Proofs.Layout.Ranks
import Mathlib.Algebra.Order.Ring.Abs
import Mathlib.Data.List.Nodup
import Mathlib.Tactic.Linarith

/-! Nodes with different ids stand apart. The ranks are rows without a gap, from rank zero up to the
greatest one, and the nodes of one rank stand in their row in the order of the nodes. -/
namespace Flowchart.Layout

/-- The coordinate in which the ranks follow each other. -/
def Place.along (d : Direction) (p : Place) : Int :=
  if d.isHorizontal then p.x else p.y

/-- The coordinate in which the nodes of one rank follow each other. -/
def Place.across (d : Direction) (p : Place) : Int :=
  if d.isHorizontal then p.y else p.x

def siblingSpacing (d : Direction) : Int :=
  2 * halfSpacing d

namespace Skeleton

variable {g : Skeleton} {d : Direction} {id : String}

section Lists

theorem lookup_map_pair {α : Type} {ids : List String} (f : String → α) (h : id ∈ ids) :
    (ids.map fun i => (i, f i)).lookup id = some (f id) := by
  induction ids with
  | nil => cases h
  | cons first ids ih =>
    rw [List.map_cons, List.lookup_cons]
    by_cases hfirst : id = first
    · rw [hfirst, beq_self_eq_true]
    · rw [beq_eq_false_iff_ne.mpr hfirst]
      exact ih (List.mem_of_ne_of_mem hfirst h)

theorem lastIndex_eq_idxOf {ids : List String} (hnodup : ids.Nodup) (h : id ∈ ids) :
    lastIndex ids id = ids.idxOf id := by
  have hlt : ids.idxOf id < ids.length := List.idxOf_lt_length_of_mem h
  have hlast : ids.length - 1 - ids.idxOf id < ids.reverse.length := by
    rw [List.length_reverse]
    omega
  have hget : ids.reverse[ids.length - 1 - ids.idxOf id] = id := by
    rw [List.getElem_reverse]
    have hback : ids.length - 1 - (ids.length - 1 - ids.idxOf id) = ids.idxOf id := by omega
    simp only [hback, List.getElem_idxOf]
  have hindex := (List.nodup_reverse.mpr hnodup).idxOf_getElem _ hlast
  rw [hget] at hindex
  rw [lastIndex, hindex]
  omega

theorem isGreatest_foldl_max {ns : List Nat} (hne : ns ≠ []) :
    IsGreatest {n | n ∈ ns} (ns.foldl max 0) := by
  have hfold : ∀ start, (∀ n ∈ ns, n ≤ ns.foldl max start) ∧ start ≤ ns.foldl max start ∧
      (ns.foldl max start = start ∨ ns.foldl max start ∈ ns) := by
    clear hne
    induction ns with
    | nil => simp
    | cons n ns ih =>
      intro start
      obtain ⟨hupper, hstart, hmem⟩ := ih (max start n)
      rw [List.foldl_cons]
      refine ⟨?_, by omega, ?_⟩
      · intro m hm
        rcases List.mem_cons.mp hm with rfl | hm
        · omega
        · exact hupper m hm
      · rcases hmem with heq | hmem
        · rcases max_cases start n with ⟨hmax, -⟩ | ⟨hmax, -⟩
          · left
            rw [heq, hmax]
          · right
            rw [heq, hmax]
            exact List.mem_cons_self
        · exact .inr (List.mem_cons_of_mem _ hmem)
  obtain ⟨hupper, -, hzero | hmem⟩ := hfold 0
  · obtain ⟨n, hn⟩ := List.exists_mem_of_ne_nil ns hne
    have hle := hupper n hn
    have hsame : n = ns.foldl max 0 := by omega
    exact ⟨hsame ▸ hn, hupper⟩
  · exact ⟨hmem, hupper⟩

theorem pairwise_idxOf_lt {ids : List String} (h : ids.Nodup) :
    ids.Pairwise fun first second => ids.idxOf first < ids.idxOf second := by
  rw [List.pairwise_iff_getElem]
  intro i j hi hj hij
  rw [h.idxOf_getElem, h.idxOf_getElem]
  exact hij

end Lists

section Rows

def rankOf (g : Skeleton) (id : String) : Nat :=
  (g.reached.lookup id).getD 0

def greatestRank (g : Skeleton) : Nat :=
  (g.ranks.map (·.2)).foldl max 0

/-- The nodes of one rank in their order. -/
def row (g : Skeleton) (rank : Nat) : List String :=
  g.ids.filter (g.rankOf · == rank)

theorem mem_ranks {rank : Nat} : (id, rank) ∈ g.ranks ↔ id ∈ g.ids ∧ g.rankOf id = rank := by
  simp only [ranks, List.mem_map, mem_distinct, Prod.mk.injEq]
  constructor
  · intro h
    obtain ⟨node, hnode, hid, hrank⟩ := h
    subst hid
    exact ⟨hnode, hrank⟩
  · intro h
    obtain ⟨hid, hrank⟩ := h
    exact ⟨id, hid, rfl, hrank⟩

theorem mem_map_ranks {rank : Nat} :
    rank ∈ g.ranks.map (·.2) ↔ ∃ id ∈ g.ids, g.rankOf id = rank := by
  simp [List.mem_map, mem_ranks]

theorem lookup_ranks (h : id ∈ g.ids) : g.ranks.lookup id = some (g.rankOf id) :=
  lookup_map_pair g.rankOf (mem_distinct.mpr h)

theorem isGreatest_greatestRank (hne : g.ids ≠ []) :
    IsGreatest {rank | rank ∈ g.ranks.map (·.2)} g.greatestRank := by
  apply isGreatest_foldl_max
  obtain ⟨id, hid⟩ := List.exists_mem_of_ne_nil g.ids hne
  exact List.ne_nil_of_mem (mem_map_ranks.mpr ⟨id, hid, rfl⟩)

theorem rankOf_le_greatestRank (h : id ∈ g.ids) : g.rankOf id ≤ g.greatestRank :=
  (isGreatest_greatestRank (List.ne_nil_of_mem h)).2 (mem_map_ranks.mpr ⟨id, h, rfl⟩)

/-- A shortest way to a node ends with a link from a node of the rank before. -/
theorem exists_rankOf_of_succ {rank : Nat} (h : g.rankOf id = rank + 1) :
    ∃ source ∈ g.ids, g.rankOf source = rank := by
  have hdistance := isDistance_reached g id
  rw [← rankOf, h] at hdistance
  have hleast := hdistance.resolve_right fun hno => Nat.succ_ne_zero rank hno.2
  have hreached : g.IsReached (rank + 1) id := hleast.1
  cases hreached with
  | @link _ source _ hsource hlink =>
    refine ⟨source, hlink.2.1, ?_⟩
    have hsourceLeast := (isDistance_reached g source).resolve_right fun hno => hno.1 _ hsource
    have hle : g.rankOf source ≤ rank := hsourceLeast.2 hsource
    have hge : rank + 1 ≤ g.rankOf source + 1 := hleast.2 (.link hsourceLeast.1 hlink)
    omega

/-- No rank below the greatest is left out. -/
theorem exists_rankOf_of_le {rank : Nat} (hne : g.ids ≠ []) (h : rank ≤ g.greatestRank) :
    ∃ id ∈ g.ids, g.rankOf id = rank := by
  induction h using Nat.decreasingInduction with
  | self => exact mem_map_ranks.mp (isGreatest_greatestRank hne).1
  | of_succ rank _ ih =>
    obtain ⟨id, -, hid⟩ := ih
    exact exists_rankOf_of_succ hid

theorem nodup_row (hnodup : g.ids.Nodup) (rank : Nat) : (g.row rank).Nodup :=
  hnodup.filter _

theorem mem_row {rank : Nat} : id ∈ g.row rank ↔ id ∈ g.ids ∧ g.rankOf id = rank := by
  simp [row]

theorem pairwise_idxOf_row (hnodup : g.ids.Nodup) :
    g.ids.Pairwise fun first second => g.rankOf first = g.rankOf second →
      (g.row (g.rankOf first)).idxOf first < (g.row (g.rankOf second)).idxOf second := by
  rw [List.pairwise_iff_getElem]
  intro i j hi hj hij hrank
  have hrow := List.pairwise_filter.mp (pairwise_idxOf_lt (nodup_row hnodup (g.rankOf g.ids[j])))
  rw [hrank]
  exact List.pairwise_iff_getElem.mp hrow i j hi hj hij (by simpa using hrank) (by simp)

end Rows

section Places

theorem rankMembers_eq_row (g : Skeleton) (rank : Nat) :
    rankMembers (g.rankedIds g.ranks) rank = g.row rank := by
  have hranked : g.rankedIds g.ranks = g.ids.map fun id => (id, g.rankOf id) :=
    List.map_congr_left fun id hid => by rw [lookup_ranks hid, Option.getD_some]
  rw [rankMembers, hranked, List.filter_map, List.map_map]
  exact List.map_id' _

def placeOf (g : Skeleton) (d : Direction) (id : String) : Place :=
  let row := g.row (g.rankOf id)
  place d g.greatestRank (g.rankOf id) (row.idxOf id) row.length

theorem places_eq_map (hnodup : g.ids.Nodup) (d : Direction) :
    g.places d = g.ids.map fun id => (id, g.placeOf d id) := by
  have hranks : g.ranks = g.ids.map fun id => (id, g.rankOf id) := by
    rw [ranks, distinct_eq_self hnodup]
    rfl
  unfold places
  simp only [rankMembers_eq_row]
  rw [← greatestRank]
  conv_lhs => rw [hranks, List.map_map]
  refine List.map_congr_left fun id hid => ?_
  have hrow : id ∈ g.row (g.rankOf id) := mem_row.mpr ⟨hid, rfl⟩
  simp only [Function.comp_apply, placeOf, lastIndex_eq_idxOf (nodup_row hnodup _) hrow]

theorem mem_places (hnodup : g.ids.Nodup) {p : Place} :
    (id, p) ∈ g.places d ↔ id ∈ g.ids ∧ g.placeOf d id = p := by
  rw [places_eq_map hnodup, List.mem_map]
  constructor
  · intro h
    obtain ⟨node, hnode, hpair⟩ := h
    obtain ⟨rfl, hplace⟩ := Prod.mk.inj hpair
    exact ⟨hnode, hplace⟩
  · intro h
    obtain ⟨hid, hplace⟩ := h
    exact ⟨id, hid, by rw [hplace]⟩

theorem lookup_places (hnodup : g.ids.Nodup) (h : id ∈ g.ids) :
    (g.places d).lookup id = some (g.placeOf d id) := by
  rw [places_eq_map hnodup]
  exact lookup_map_pair (g.placeOf d) h

/-- The number of a rank from the side where the ranks begin. -/
def rowNumber (g : Skeleton) (d : Direction) (rank : Nat) : Nat :=
  if d.isReversed then g.greatestRank - rank else rank

theorem rowNumber_le {rank : Nat} (h : rank ≤ g.greatestRank) :
    g.rowNumber d rank ≤ g.greatestRank := by
  unfold rowNumber
  split_ifs <;> omega

theorem rowNumber_rowNumber {rank : Nat} (h : rank ≤ g.greatestRank) :
    g.rowNumber d (g.rowNumber d rank) = rank := by
  unfold rowNumber
  split_ifs <;> omega

theorem along_placeOf (h : id ∈ g.ids) :
    (g.placeOf d id).along d = origin + g.rowNumber d (g.rankOf id) * rankSpacing d := by
  have hle := rankOf_le_greatestRank h
  have hcast : ((g.greatestRank - g.rankOf id : Nat) : Int) = g.greatestRank - g.rankOf id :=
    Nat.cast_sub hle
  unfold placeOf place Place.along rowNumber
  split_ifs <;> simp only [hcast]

theorem across_placeOf (g : Skeleton) (d : Direction) (id : String) :
    (g.placeOf d id).across d = origin + (2 * ((g.row (g.rankOf id)).idxOf id : Int) -
      (((g.row (g.rankOf id)).length : Int) - 1)) * halfSpacing d := by
  unfold placeOf place Place.across
  split_ifs <;> rfl

theorem halfSpacing_pos (d : Direction) : 0 < halfSpacing d := by
  cases d <;> decide

theorem rankSpacing_pos (d : Direction) : 0 < rankSpacing d := by
  cases d <;> decide

theorem rankSpacing_le_of_ne {other : String} (hid : id ∈ g.ids) (hother : other ∈ g.ids)
    (hne : g.rankOf id ≠ g.rankOf other) :
    rankSpacing d ≤ |(g.placeOf d id).along d - (g.placeOf d other).along d| := by
  have hrows : g.rowNumber d (g.rankOf id) ≠ g.rowNumber d (g.rankOf other) := by
    intro heq
    have hback := congrArg (g.rowNumber d) heq
    rw [rowNumber_rowNumber (rankOf_le_greatestRank hid),
      rowNumber_rowNumber (rankOf_le_greatestRank hother)] at hback
    exact hne hback
  have hone : 1 ≤ |(g.rowNumber d (g.rankOf id) : Int) - g.rowNumber d (g.rankOf other)| := by
    apply Int.one_le_abs
    omega
  rw [along_placeOf hid, along_placeOf hother, add_sub_add_left_eq_sub, ← sub_mul, abs_mul,
    abs_of_pos (rankSpacing_pos d)]
  exact le_mul_of_one_le_left (rankSpacing_pos d).le hone

/-- Nodes of one rank stand in one line, in their order and with room between them. -/
theorem pairwise_of_rankOf_eq (hnodup : g.ids.Nodup) :
    g.ids.Pairwise fun first second => g.rankOf first = g.rankOf second →
      (g.placeOf d first).across d + siblingSpacing d ≤ (g.placeOf d second).across d := by
  refine (pairwise_idxOf_row hnodup).imp fun {first second} horder hrank => ?_
  have hindex := horder hrank
  rw [across_placeOf, across_placeOf, hrank]
  rw [hrank] at hindex
  have hstep : ((g.row (g.rankOf second)).idxOf first : Int) + 1 ≤
      (g.row (g.rankOf second)).idxOf second := by
    exact_mod_cast hindex
  have hroom := mul_le_mul_of_nonneg_right hstep (halfSpacing_pos d).le
  unfold siblingSpacing
  linarith

/-- Any two nodes are apart by the distance of neighbouring rows or by that of neighbours in a row. -/
theorem pairwise_apart (hnodup : g.ids.Nodup) : g.ids.Pairwise fun first second =>
    rankSpacing d ≤ |(g.placeOf d first).along d - (g.placeOf d second).along d| ∨
      siblingSpacing d ≤ |(g.placeOf d first).across d - (g.placeOf d second).across d| := by
  refine (pairwise_of_rankOf_eq (d := d) hnodup).imp_of_mem
    fun {first second} hfirst hsecond hrow => ?_
  by_cases hsame : g.rankOf first = g.rankOf second
  · have hroom := hrow hsame
    right
    rw [abs_sub_comm]
    exact (le_sub_iff_add_le'.mpr hroom).trans (le_abs_self _)
  · exact .inl (rankSpacing_le_of_ne hfirst hsecond hsame)

end Places

/-- In every direction just the nodes have a place. The rows stand one behind the other at equal
distances, one for each number up to the greatest rank, and none of them is empty. Nodes of one rank
share a row and stand in it in their order, and any two nodes are apart by the distance of neighbouring
rows or by that of neighbours in a row. -/
theorem isSpread_places (g : Skeleton) (d : Direction) (hne : g.ids ≠ []) (hnodup : g.ids.Nodup) :
    (g.places d).map (·.1) = g.ids ∧
    ∃ greatest : Nat, IsGreatest {rank | rank ∈ g.ranks.map (·.2)} greatest ∧
      (∀ entry ∈ g.places d, ∃ k ≤ greatest, entry.2.along d = origin + k * rankSpacing d) ∧
      (∀ k ≤ greatest, ∃ entry ∈ g.places d, entry.2.along d = origin + k * rankSpacing d) ∧
      ((g.places d).Pairwise fun first second => ∀ rank,
        (first.1, rank) ∈ g.ranks → (second.1, rank) ∈ g.ranks →
          first.2.along d = second.2.along d ∧
            first.2.across d + siblingSpacing d ≤ second.2.across d) ∧
      (g.places d).Pairwise fun first second =>
        rankSpacing d ≤ |first.2.along d - second.2.along d| ∨
          siblingSpacing d ≤ |first.2.across d - second.2.across d| := by
  refine ⟨by rw [map_fst_places, distinct_eq_self hnodup], g.greatestRank,
    isGreatest_greatestRank hne, ?_, ?_, ?_, ?_⟩
  · intro entry hentry
    obtain ⟨id, p⟩ := entry
    obtain ⟨hid, rfl⟩ := (mem_places hnodup).mp hentry
    exact ⟨_, rowNumber_le (rankOf_le_greatestRank hid), along_placeOf hid⟩
  · intro k hk
    obtain ⟨id, hid, hrank⟩ := exists_rankOf_of_le hne (rowNumber_le (d := d) hk)
    refine ⟨(id, g.placeOf d id), (mem_places hnodup).mpr ⟨hid, rfl⟩, ?_⟩
    rw [along_placeOf hid, hrank, rowNumber_rowNumber hk]
  · rw [places_eq_map hnodup, List.pairwise_map]
    refine (pairwise_of_rankOf_eq (d := d) hnodup).imp fun {first second} hrow rank hfirst hsecond => ?_
    obtain ⟨hfirst, hrank⟩ := mem_ranks.mp hfirst
    obtain ⟨hsecond, hrank'⟩ := mem_ranks.mp hsecond
    have hsame : g.rankOf first = g.rankOf second := hrank.trans hrank'.symm
    refine ⟨?_, hrow hsame⟩
    rw [along_placeOf hfirst, along_placeOf hsecond, hsame]
  · rw [places_eq_map hnodup, List.pairwise_map]
    exact pairwise_apart hnodup

/-- Two nodes behind a root, a third behind one of them, and a cycle that no root reaches. -/
def fan : Skeleton where
  ids := ["S", "X", "A", "B", "C", "Y"]
  links := [("S", "A"), ("S", "B"), ("A", "C"), ("B", "C"), ("X", "Y"), ("Y", "X")]

/-- From right to left the three ranks are three columns, and the cycle stands in that of the root. -/
theorem isSpread_places_fan :
    (fan.ids ≠ [] ∧ fan.ids.Nodup) ∧
    fan.places .rightLeft = [("S", ⟨600, -20⟩), ("X", ⟨600, 100⟩), ("A", ⟨350, 40⟩),
      ("B", ⟨350, 160⟩), ("C", ⟨100, 100⟩), ("Y", ⟨600, 220⟩)] ∧
    ((fan.places .rightLeft).Pairwise fun first second =>
      250 ≤ |first.2.x - second.2.x| ∨ 120 ≤ |first.2.y - second.2.y|) := by
  have hnodup : fan.ids.Nodup := by decide
  obtain ⟨-, greatest, -, -, -, -, hapart⟩ :=
    isSpread_places fan .rightLeft (List.cons_ne_nil _ _) hnodup
  exact ⟨⟨List.cons_ne_nil _ _, hnodup⟩, by decide +kernel, hapart⟩

end Skeleton
end Flowchart.Layout
