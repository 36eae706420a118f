import Flowchart.Proofs.Layout.Places
import Mathlib.Order.Bounds.Basic

/-! The rank of a node is the least number of links on a way to it from a root: the queue is in the order
of the ranks with which nodes wait in it, so that a node is first taken out at its least distance. -/
namespace Flowchart.Layout.Skeleton

variable {g : Skeleton}

section Distances

def Linked (g : Skeleton) (source target : String) : Prop :=
  (source, target) ∈ g.links ∧ source ∈ g.ids ∧ target ∈ g.ids

/-- A node to which no link leads, or the first node where every node has a link to it. -/
def IsRoot (g : Skeleton) (id : String) : Prop :=
  (id ∈ g.ids ∧ ∀ source, ¬g.Linked source id) ∨
    (∀ target ∈ g.ids, ∃ source, g.Linked source target) ∧ g.ids.head? = some id

/-- A way of so many links leads from a root to the node. -/
inductive IsReached (g : Skeleton) : Nat → String → Prop
  | root {id : String} : g.IsRoot id → IsReached g 0 id
  | link {steps : Nat} {source target : String} :
      IsReached g steps source → g.Linked source target → IsReached g (steps + 1) target

/-- The length of the shortest way from a root, and zero for a node that no root reaches. -/
def IsDistance (g : Skeleton) (id : String) (rank : Nat) : Prop :=
  IsLeast {steps | g.IsReached steps id} rank ∨ (∀ steps, ¬g.IsReached steps id) ∧ rank = 0

theorem mem_innerLinks {source target : String} :
    (source, target) ∈ g.innerLinks ↔ g.Linked source target := by
  simp [innerLinks, Linked]

theorem mem_roots {id : String} : id ∈ g.roots ↔ g.IsRoot id := by
  have htarget : ∀ id, id ∈ g.innerLinks.map (·.2) ↔ ∃ source, g.Linked source id := by
    intro id
    simp [← mem_innerLinks]
  have hfree : ∀ id, (id ∈ g.ids.filter fun id => !(g.innerLinks.map (·.2)).contains id) ↔
      id ∈ g.ids ∧ ∀ source, ¬g.Linked source id := by
    intro id
    rw [List.mem_filter, Bool.not_eq_true', ← Bool.not_eq_true, List.contains_iff_mem, htarget,
      not_exists]
  unfold roots IsRoot
  dsimp only
  split
  · next hnone =>
    have hall : ∀ target ∈ g.ids, ∃ source, g.Linked source target := by
      intro target hmem
      by_contra hno
      have := (hfree target).mpr ⟨hmem, not_exists.mp hno⟩
      rw [hnone] at this
      cases this
    have hno : ¬(id ∈ g.ids ∧ ∀ source, ¬g.Linked source id) := by
      rintro ⟨hmem, hno⟩
      obtain ⟨source, hlink⟩ := hall id hmem
      exact hno source hlink
    rw [or_iff_right hno, and_iff_right hall]
    cases g.ids <;> simp [eq_comm]
  · next hsome =>
    obtain ⟨first, hfirst⟩ := List.exists_mem_of_ne_nil _ hsome
    have hno : ¬∀ target ∈ g.ids, ∃ source, g.Linked source target := by
      intro hall
      obtain ⟨hmem, hnone⟩ := (hfree first).mp hfirst
      obtain ⟨source, hlink⟩ := hall first hmem
      exact hnone source hlink
    rw [hfree, or_iff_left fun h => hno h.1]

end Distances

section Search

variable {queue ranked : List (String × Nat)} {node : String} {rank : Nat}

theorem isRanked_iff {id : String} : isRanked ranked id = true ↔ ∃ n, (id, n) ∈ ranked := by
  simp [isRanked]

theorem mem_children {links : List (String × String)} {target : String} :
    target ∈ children links node ↔ (node, target) ∈ links := by
  simp [children]

/-- What holds between the queue and the ranks whenever a node is to be taken out of the queue. -/
structure IsSearching (g : Skeleton) (queue ranked : List (String × Nat)) : Prop where
  /-- Whoever waits is reached in so many links. -/
  waiting : ∀ entry ∈ queue, g.IsReached entry.2 entry.1
  /-- Nobody waits behind one of a greater rank, and ranks in the queue differ by at most one. -/
  inOrder : queue.Pairwise fun first second => first.2 ≤ second.2 ∧ second.2 ≤ first.2 + 1
  least : ∀ entry ∈ ranked, IsLeast {steps | g.IsReached steps entry.1} entry.2
  roots : ∀ id, g.IsRoot id → isRanked ranked id = true ∨ (id, 0) ∈ queue
  links : ∀ entry ∈ ranked, ∀ target, g.Linked entry.1 target →
    isRanked ranked target = true ∨ (target, entry.2 + 1) ∈ queue

namespace IsSearching

theorem start (g : Skeleton) : g.IsSearching (g.roots.map (·, 0)) [] where
  waiting := by
    intro entry hentry
    obtain ⟨id, hid, rfl⟩ := List.mem_map.mp hentry
    exact .root (mem_roots.mp hid)
  inOrder := by
    rw [List.pairwise_map]
    exact List.pairwise_of_forall fun _ _ => ⟨le_rfl, Nat.zero_le _⟩
  least := by simp
  roots := by
    intro id hid
    exact .inr (List.mem_map.mpr ⟨id, mem_roots.mpr hid, rfl⟩)
  links := by simp

/-- On the way to a node without rank somebody waits whose rank is no greater than the length of the
way. -/
theorem exists_waiting (h : g.IsSearching queue ranked) {steps : Nat} {id : String}
    (hreached : g.IsReached steps id) (hid : isRanked ranked id = false) :
    ∃ entry ∈ queue, entry.2 ≤ steps := by
  induction hreached with
  | root hroot =>
    rcases h.roots _ hroot with hr | hq
    · rw [hid] at hr
      cases hr
    · exact ⟨_, hq, le_rfl⟩
  | @link steps source target hsource hlink ih =>
    cases hs : isRanked ranked source with
    | false =>
      obtain ⟨entry, hentry, hle⟩ := ih hs
      exact ⟨entry, hentry, by omega⟩
    | true =>
      obtain ⟨n, hn⟩ := isRanked_iff.mp hs
      have hle : n ≤ steps := (h.least _ hn).2 hsource
      rcases h.links _ hn target hlink with hr | hq
      · rw [hid] at hr
        cases hr
      · exact ⟨_, hq, Nat.succ_le_succ hle⟩

private theorem isRanked_or_mem_tail (hnode : isRanked ranked node = true) {id : String} {n : Nat}
    (h : isRanked ranked id = true ∨ (id, n) ∈ (node, rank) :: queue) :
    isRanked ranked id = true ∨ (id, n) ∈ queue := by
  rcases h with hr | hq
  · exact .inl hr
  · rcases List.mem_cons.mp hq with heq | hq
    · cases heq
      exact .inl hnode
    · exact .inr hq

theorem skip (h : g.IsSearching ((node, rank) :: queue) ranked)
    (hnode : isRanked ranked node = true) : g.IsSearching queue ranked where
  waiting := fun entry hentry => h.waiting entry (List.mem_cons_of_mem _ hentry)
  inOrder := (List.pairwise_cons.mp h.inOrder).2
  least := h.least
  roots := fun id hid => isRanked_or_mem_tail hnode (h.roots id hid)
  links := fun entry hentry target hlink =>
    isRanked_or_mem_tail hnode (h.links entry hentry target hlink)

theorem isLeast (h : g.IsSearching ((node, rank) :: queue) ranked)
    (hnode : isRanked ranked node = false) : IsLeast {steps | g.IsReached steps node} rank := by
  refine ⟨h.waiting (node, rank) List.mem_cons_self, fun steps hsteps => ?_⟩
  obtain ⟨entry, hentry, hle⟩ := h.exists_waiting hsteps hnode
  rcases List.mem_cons.mp hentry with rfl | hentry
  · exact hle
  · exact ((List.pairwise_cons.mp h.inOrder).1 entry hentry).1.trans hle

theorem take (h : g.IsSearching ((node, rank) :: queue) ranked)
    (hnode : isRanked ranked node = false) :
    g.IsSearching (queue ++ ((children g.innerLinks node).filter
      (!isRanked (ranked ++ [(node, rank)]) ·)).map (·, rank + 1)) (ranked ++ [(node, rank)]) := by
  obtain ⟨hfirst, hrest⟩ := List.pairwise_cons.mp h.inOrder
  have hkeep : ∀ id, isRanked ranked id = true → isRanked (ranked ++ [(node, rank)]) id = true := by
    intro id hid
    rw [isRanked_append, hid, Bool.true_or]
  have hself : isRanked (ranked ++ [(node, rank)]) node = true := by
    rw [isRanked_append, beq_self_eq_true, Bool.or_true]
  -- an entry of the old queue is the node taken out, or it still waits
  have hstay : ∀ {id n}, isRanked ranked id = true ∨ (id, n) ∈ (node, rank) :: queue →
      isRanked (ranked ++ [(node, rank)]) id = true ∨ (id, n) ∈ queue := by
    intro id n hold
    exact isRanked_or_mem_tail hself (hold.imp_left (hkeep id))
  constructor
  · intro entry hentry
    rcases List.mem_append.mp hentry with hq | hmet
    · exact h.waiting entry (List.mem_cons_of_mem _ hq)
    · obtain ⟨target, htarget, rfl⟩ := List.mem_map.mp hmet
      have hlink := mem_children.mp (List.mem_filter.mp htarget).1
      exact .link (h.waiting (node, rank) List.mem_cons_self) (mem_innerLinks.mp hlink)
  · refine List.pairwise_append.mpr ⟨hrest, ?_, ?_⟩
    · rw [List.pairwise_map]
      exact List.pairwise_of_forall fun _ _ => ⟨le_rfl, Nat.le_succ _⟩
    · intro first hq second hmet
      obtain ⟨target, -, rfl⟩ := List.mem_map.mp hmet
      obtain ⟨hle, hge⟩ := hfirst first hq
      exact ⟨hge, Nat.succ_le_succ hle⟩
  · intro entry hentry
    rcases List.mem_append.mp hentry with hr | hnew
    · exact h.least entry hr
    · rw [List.mem_singleton.mp hnew]
      exact h.isLeast hnode
  · intro id hid
    rcases hstay (h.roots id hid) with hr | hq
    · exact .inl hr
    · exact .inr (List.mem_append_left _ hq)
  · intro entry hentry target hlink
    rcases List.mem_append.mp hentry with hr | hnew
    · rcases hstay (h.links entry hr target hlink) with hr | hq
      · exact .inl hr
      · exact .inr (List.mem_append_left _ hq)
    · obtain rfl := List.mem_singleton.mp hnew
      cases ht : isRanked (ranked ++ [(node, rank)]) target with
      | true => exact .inl rfl
      | false =>
        have hmet : target ∈ (children g.innerLinks node).filter
            (!isRanked (ranked ++ [(node, rank)]) ·) := by
          rw [List.mem_filter, mem_children, ht]
          exact ⟨mem_innerLinks.mpr hlink, rfl⟩
        exact .inr (List.mem_append_right _ (List.mem_map_of_mem hmet))

theorem visit (h : g.IsSearching queue ranked) :
    g.IsSearching [] (visit g.innerLinks queue ranked) := by
  induction queue, ranked using visit.induct g.innerLinks with
  | case1 ranked =>
    rw [Skeleton.visit]
    exact h
  | case2 ranked node rank queue hnode ih =>
    rw [Skeleton.visit, dif_pos hnode]
    exact ih (h.skip hnode)
  | case3 ranked node rank queue hnode _ _ ih =>
    rw [Skeleton.visit, dif_neg hnode]
    exact ih (h.take (Bool.not_eq_true _ ▸ hnode))

end IsSearching
end Search

section Ranks

def reached (g : Skeleton) : List (String × Nat) :=
  visit g.innerLinks (g.roots.map (·, 0)) []

theorem isDistance_reached (g : Skeleton) (id : String) :
    g.IsDistance id ((g.reached.lookup id).getD 0) := by
  have hdone : g.IsSearching [] g.reached := (IsSearching.start g).visit
  cases hlookup : g.reached.lookup id with
  | some rank =>
    obtain ⟨front, back, hsplit, -⟩ := List.lookup_eq_some_iff.mp hlookup
    refine .inl (hdone.least (id, rank) ?_)
    rw [hsplit]
    simp
  | none =>
    have hnone : isRanked g.reached id = false := by
      rw [List.lookup_eq_none_iff] at hlookup
      rw [isRanked, List.any_eq_false]
      intro entry hentry hid
      have hne : id ≠ entry.1 := bne_iff_ne.mp (hlookup entry hentry)
      exact hne (beq_iff_eq.mp hid).symm
    refine .inr ⟨fun steps hsteps => ?_, rfl⟩
    obtain ⟨entry, hentry, -⟩ := hdone.exists_waiting hsteps hnone
    cases hentry

theorem IsDistance.unique {id : String} {rank rank' : Nat} (h : g.IsDistance id rank)
    (h' : g.IsDistance id rank') : rank = rank' := by
  rcases h with hleast | ⟨hno, rfl⟩
  · rcases h' with hleast' | ⟨hno, -⟩
    · exact hleast.unique hleast'
    · exact absurd hleast.1 (hno rank)
  · rcases h' with hleast' | ⟨-, rfl⟩
    · exact absurd hleast'.1 (hno rank')
    · rfl

/-- A link from a node that a root reaches leads at most one rank further. -/
theorem IsDistance.le_succ {source target : String} {rank rank' steps : Nat}
    (h : g.IsDistance source rank) (h' : g.IsDistance target rank') (hlink : g.Linked source target)
    (hreached : g.IsReached steps source) : rank' ≤ rank + 1 := by
  rcases h with hleast | ⟨hno, -⟩
  · have hnext : g.IsReached (rank + 1) target := .link hleast.1 hlink
    rcases h' with hleast' | ⟨hno', -⟩
    · exact hleast'.2 hnext
    · exact absurd hnext (hno' _)
  · exact absurd hreached (hno steps)

variable {g' : Skeleton}

theorem IsReached.congr (hids : g'.ids = g.ids) (hlinks : ∀ link, link ∈ g'.links ↔ link ∈ g.links)
    {steps : Nat} {id : String} (h : g.IsReached steps id) : g'.IsReached steps id := by
  have hlinked : ∀ source target, g'.Linked source target ↔ g.Linked source target := by
    intro source target
    simp only [Linked, hids, hlinks]
  induction h with
  | root hroot =>
    refine .root ?_
    simpa only [IsRoot, hids, hlinked] using hroot
  | link _ hlink ih => exact .link ih ((hlinked _ _).mpr hlink)

theorem IsDistance.congr (hids : g'.ids = g.ids) (hlinks : ∀ link, link ∈ g'.links ↔ link ∈ g.links)
    {id : String} {rank : Nat} (h : g.IsDistance id rank) : g'.IsDistance id rank := by
  have hiff : ∀ steps, g'.IsReached steps id ↔ g.IsReached steps id := fun steps =>
    ⟨.congr hids.symm fun link => (hlinks link).symm, .congr hids hlinks⟩
  simpa only [IsDistance, hiff] using h

/-- Every node has one rank, and no other id has any: the length of the shortest way from a root, or
zero where there is none. So a link out of a reached node leads at most one rank further, and neither
the order of the links matters nor how often one of them is repeated. -/
theorem isDistance_ranks (g : Skeleton) :
    (g.ranks.map (·.1)).Nodup ∧ (∀ id, id ∈ g.ranks.map (·.1) ↔ id ∈ g.ids) ∧
      (∀ entry ∈ g.ranks, g.IsDistance entry.1 entry.2) ∧
      (∀ source ∈ g.ranks, ∀ target ∈ g.ranks, g.Linked source.1 target.1 →
        (∃ steps, g.IsReached steps source.1) → target.2 ≤ source.2 + 1) ∧
      ∀ g' : Skeleton, g'.ids = g.ids → (∀ link, link ∈ g'.links ↔ link ∈ g.links) →
        g'.ranks = g.ranks := by
  have hkeys : g.ranks.map (·.1) = distinct g.ids := by
    simp [ranks, Function.comp_def]
  have hdistance : ∀ entry ∈ g.ranks, g.IsDistance entry.1 entry.2 := by
    intro entry hentry
    obtain ⟨id, -, rfl⟩ := List.mem_map.mp hentry
    exact isDistance_reached g id
  refine ⟨hkeys ▸ nodup_distinct g.ids, fun id => by rw [hkeys, mem_distinct], hdistance, ?_, ?_⟩
  · rintro source hsource target htarget hlink ⟨steps, hsteps⟩
    exact (hdistance source hsource).le_succ (hdistance target htarget) hlink hsteps
  · intro g' hids hlinks
    unfold ranks
    rw [hids]
    refine List.map_congr_left fun id _ => ?_
    have hsame := (isDistance_reached g id).congr hids hlinks
    exact congrArg (id, ·) ((isDistance_reached g' id).unique hsame)

/-- A short cut past a cycle, a loop, a doubled link, a link to nowhere, a repeated node, and a cycle
that no root reaches. -/
def tangle : Skeleton where
  ids := ["S", "A", "B", "C", "X", "Y", "S"]
  links := [("S", "A"), ("A", "B"), ("B", "C"), ("C", "A"), ("S", "B"), ("A", "A"), ("S", "A"),
    ("S", "nowhere"), ("X", "Y"), ("Y", "X")]

/-- The short cut counts, the cycle apart has rank zero, and the links may as well be reversed. -/
theorem isDistance_ranks_tangle :
    tangle.ranks = [("S", 0), ("A", 1), ("B", 1), ("C", 2), ("X", 0), ("Y", 0)] ∧
      tangle.IsDistance "C" 2 ∧ tangle.IsDistance "X" 0 ∧
      ranks { tangle with links := tangle.links.reverse } = tangle.ranks := by
  have hranks : tangle.ranks = [("S", 0), ("A", 1), ("B", 1), ("C", 2), ("X", 0), ("Y", 0)] := by
    decide +kernel
  obtain ⟨-, -, hdistance, -, horder⟩ := isDistance_ranks tangle
  refine ⟨hranks, ?_, ?_, horder _ rfl fun link => List.mem_reverse⟩
  · exact hdistance ("C", 2) (by rw [hranks]; decide)
  · exact hdistance ("X", 0) (by rw [hranks]; decide)

end Ranks

end Flowchart.Layout.Skeleton
