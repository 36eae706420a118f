import Flowchart.Graph.Basic
import Flowchart.Layout.Ranks

/-!
Places on the canvas. Each rank is one row, or one column in the horizontal directions; the nodes of
a rank are centred around the axis of the ranks. All coordinates are whole numbers.
-/
namespace Flowchart

namespace Direction

def isHorizontal (d : Direction) : Bool :=
  d == leftRight || d == rightLeft

/-- The roots are at the far end. -/
def isReversed (d : Direction) : Bool :=
  d == bottomTop || d == rightLeft

end Direction

namespace Layout

/-- The place of the first rank, and of the axis. -/
def origin : Int := 100

def rankSpacing (d : Direction) : Int :=
  if d.isHorizontal then 250 else 150

/-- Half the distance between neighbours of one rank. -/
def halfSpacing (d : Direction) : Int :=
  if d.isHorizontal then 60 else 90

structure Place where
  x : Int
  y : Int
deriving DecidableEq

/-- The position of the last occurrence of an id in a list. -/
def lastIndex (ids : List String) (id : String) : Nat :=
  ids.length - 1 - (ids.reverse.idxOf id)

namespace Skeleton

/-- The ids in the order of the nodes, repetitions included, each with its rank. -/
def rankedIds (g : Skeleton) (ranks : List (String × Nat)) : List (String × Nat) :=
  g.ids.map fun id => (id, (ranks.lookup id).getD 0)

def rankMembers (ranked : List (String × Nat)) (rank : Nat) : List String :=
  (ranked.filter (·.2 == rank)).map (·.1)

/-- The place of a node, given its rank, its number in the rank and the size of the rank. -/
def place (d : Direction) (greatestRank rank index size : Nat) : Place :=
  let along := origin + (if d.isReversed then (greatestRank : Int) - rank else rank) * rankSpacing d
  let across := origin + (2 * (index : Int) - ((size : Int) - 1)) * halfSpacing d
  if d.isHorizontal then ⟨along, across⟩ else ⟨across, along⟩

def places (g : Skeleton) (d : Direction) : List (String × Place) :=
  let ranks := g.ranks
  let ranked := g.rankedIds ranks
  let greatestRank := (ranks.map (·.2)).foldl max 0
  ranks.map fun (id, rank) =>
    let members := rankMembers ranked rank
    (id, place d greatestRank rank (lastIndex members id) members.length)

end Skeleton

def Place.toPosition (p : Place) : Position :=
  ⟨.ofInt p.x, .ofInt p.y⟩

end Layout

namespace Document

def skeleton (d : Document) : Layout.Skeleton where
  ids := d.nodes.values.map (·.id)
  links := d.edges.map fun e => (e.source, e.target)

/-- The document with every node at the place that a direction gives it. -/
def arranged (d : Document) (direction : Direction) : Document :=
  let places := d.skeleton.places direction
  { d with nodes := d.nodes.mapValues fun _ node =>
      { node with position := (places.lookup node.id).map Layout.Place.toPosition } }

end Document
end Flowchart
