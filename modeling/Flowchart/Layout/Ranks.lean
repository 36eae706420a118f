/-!
Ranks of the nodes of a graph: the least number of links from a root. Roots are the nodes at which no
link ends, or the first node alone if there is no such node. The nodes wait in a queue, each as often as
it was met, and a node gets its rank when it is first taken out.
-/
namespace Flowchart.Layout

/-- A graph as far as its layout depends on it: the ids of its nodes, which may repeat, and pairs of
a source and a target. -/
structure Skeleton where
  ids : List String
  links : List (String × String)

namespace Skeleton

def innerLinks (g : Skeleton) : List (String × String) :=
  g.links.filter fun (source, target) => g.ids.contains source && g.ids.contains target

def roots (g : Skeleton) : List String :=
  let targets := g.innerLinks.map (·.2)
  match g.ids.filter fun id => !targets.contains id with
  | [] => g.ids.take 1
  | roots => roots

/-- The ids without repetitions, each at its first place. -/
def distinct (ids : List String) : List String :=
  ids.foldl (fun seen id => if seen.contains id then seen else seen ++ [id]) []

def isRanked (ranked : List (String × Nat)) (id : String) : Bool :=
  ranked.any (·.1 == id)

theorem isRanked_append (ranked : List (String × Nat)) (node id : String) (rank : Nat) :
    isRanked (ranked ++ [(node, rank)]) id = (isRanked ranked id || node == id) := by
  simp [isRanked, List.any_append]

def children (links : List (String × String)) (node : String) : List String :=
  (links.filter (·.1 == node)).map (·.2)

/-- How many links start at nodes without a rank: so often a node may still be met. -/
def openLinks (links : List (String × String)) (ranked : List (String × Nat)) : Nat :=
  links.countP fun link => !isRanked ranked link.1

/-- The children of a node that gets its rank are met for the last time. -/
theorem length_children_add_openLinks (links : List (String × String)) {ranked : List (String × Nat)}
    {node : String} (rank : Nat) (h : isRanked ranked node = false) :
    (children links node).length + openLinks links (ranked ++ [(node, rank)]) =
      openLinks links ranked := by
  induction links with
  | nil => rfl
  | cons link links ih =>
    simp only [children, openLinks, List.length_map, List.filter_cons, List.countP_cons,
      isRanked_append] at ih ⊢
    by_cases hn : link.1 = node
    · subst hn
      simp [h] at ih ⊢
      omega
    · simp [hn, Ne.symm hn] at ih ⊢
      omega

/-- Takes the nodes out of the queue one after the other. One that has no rank yet gets the rank with
which it waits, and its children without a rank join the queue. -/
def visit (links : List (String × String)) :
    List (String × Nat) → List (String × Nat) → List (String × Nat)
  | [], ranked => ranked
  | (node, rank) :: queue, ranked =>
    if _h : isRanked ranked node then visit links queue ranked
    else
      let ranked' := ranked ++ [(node, rank)]
      let met := (children links node).filter (!isRanked ranked' ·)
      visit links (queue ++ met.map (·, rank + 1)) ranked'
termination_by queue ranked => queue.length + openLinks links ranked
decreasing_by
  · simp
  · have hopen := length_children_add_openLinks links rank (by simpa using _h)
    have hmet := List.length_filter_le (!isRanked (ranked ++ [(node, rank)]) ·) (children links node)
    simp only [List.length_append, List.length_map, List.length_cons]
    omega

/-- The rank of every node; nodes that no root reaches have rank zero. -/
def ranks (g : Skeleton) : List (String × Nat) :=
  let reached := visit g.innerLinks (g.roots.map (·, 0)) []
  (distinct g.ids).map fun id => (id, (reached.lookup id).getD 0)

end Skeleton
end Flowchart.Layout
