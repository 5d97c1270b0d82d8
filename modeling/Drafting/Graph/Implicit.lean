import Drafting.Constraint.Make
import Drafting.Graph.Basic

/-!
Relations that hold by the shape of the elements: lines along an axis, and rectangles, whose edges
are horizontal and vertical in turn. The relations of rectangles are kept in tables under the
identifiers of the elements.
-/

namespace Drafting

variable {α : Type} [Scalar α]

open Scalar

/-- The names of the lines along each axis, and for every rectangle those of its corners and
edges. -/
structure Implicit where
  horizontal : List String := []
  vertical : List String := []
  corners : List (Value × List String) := []
  edges : List (Value × List String) := []

namespace Implicit

/-- The deviation from an axis that a line may have. -/
def axisTolerance : α := decimal 1 6

/-- Entries with one more: an identifier that is there already keeps its place. -/
def put (id : Value) (names : List String) :
    List (Value × List String) → List (Value × List String)
  | [] => [(id, names)]
  | e :: es => if e.1 == id then (e.1, names) :: es else e :: put id names es

/-- The relations with those of one more element. -/
def add (r : Implicit) (e : Element α) : Except Error Implicit :=
  match e.shape with
  | .hline .. => .ok { r with horizontal := r.horizontal ++ [lineName e.id] }
  | .vline .. => .ok { r with vertical := r.vertical ++ [lineName e.id] }
  | .line start stop =>
    if lt (abs (stop.y - start.y)) axisTolerance then
      .ok { r with horizontal := r.horizontal ++ [lineName e.id] }
    else if lt (abs (stop.x - start.x)) axisTolerance then
      .ok { r with vertical := r.vertical ++ [lineName e.id] }
    else .ok r
  | .rectangle .. => do
    let id ← e.id.asKey
    return { r with
      corners := put id ((List.range 4).map fun i => vertexName id .corner (some i)) r.corners
      edges := put id ((List.range 4).map (edgeName id)) r.edges }
  | _ => .ok r

/-- The relations of a drawing. They fail only for a rectangle whose identifier is no key. -/
def ofElements (elements : List (Element α)) : Except Error Implicit := elements.foldlM add {}

/-- The constraints that keep one rectangle along the axes. -/
def rectangleConstraints (issued : Nat) : List String → List Constraint
  | [a, b, c, d] =>
    [.horizontal (.issued issued) (.text a), .vertical (.issued (issued + 1)) (.text b),
      .horizontal (.issued (issued + 2)) (.text c), .vertical (.issued (issued + 3)) (.text d)]
  | _ => []

/-- The constraints that keep the rectangles along the axes during a solve, with identifiers from
`issued` on. -/
def axisConstraints (issued : Nat) (elements : List (Element α)) :
    Except Error (List Constraint) := do
  let r ← ofElements elements
  return (r.edges.mapIdx fun i e => rectangleConstraints (issued + 4 * i) e.2).flatten

end Implicit

end Drafting
