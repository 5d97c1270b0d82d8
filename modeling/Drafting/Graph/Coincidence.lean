import Drafting.Graph.Basic

/-!
Points of a graph that lie on top of each other.
-/

namespace Drafting.Graph

variable {α : Type} [Scalar α]

open Scalar

/-- The distance below which two points count as one: a millionth. -/
def pointTolerance : α := decimal 1 6

/-- Whether two vertices are closer than the square root of `limit`. -/
def close (limit : α) (v w : Vertex α) : Bool :=
  let dx := v.x - w.x
  let dy := v.y - w.y
  lt (dx * dx + dy * dy) limit

/-- The names of all pairs of vertices closer than `tolerance`, earlier vertices first. -/
def coincidentPairs (tolerance : α) : List (Vertex α) → List (Value × Value)
  | [] => []
  | v :: vs =>
    (vs.filter (close (tolerance * tolerance) v)).map (fun w => (v.id, w.id)) ++
      coincidentPairs tolerance vs

end Drafting.Graph
