/-!
Sets of points given by ranges.
-/
namespace Flowchart.Text

def inRanges (ranges : List (Nat × Nat)) (n : Nat) : Bool :=
  ranges.any fun (first, last) => first ≤ n && n ≤ last

end Flowchart.Text
