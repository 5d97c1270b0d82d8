import Drafting.Graph.Basic

/-!
Taking a drawing apart into its constraint graph. A line gives two points and an edge, a rectangle
four corners and four edges, a circle its center and a circle, an arc its center, its two ends and
a circle, a spline its control points. Foreign shapes give nothing.
-/

namespace Drafting

variable {α : Type} [Scalar α]

/-- A vertex of an element at a point. -/
def Element.vertex (e : Element α) (role : Role) (index : Option Nat) (p : Point α) : Vertex α where
  id := .text (vertexName e.id role index)
  x := p.x
  y := p.y
  element := e.id
  role := role
  index := index

/-- The graph of a straight line from one point to another. -/
def Element.lineGraph (e : Element α) (start stop : Point α) : Graph α where
  vertices := [e.vertex .start none start, e.vertex .stop none stop]
  edges :=
    [⟨.text (lineName e.id), .text (vertexName e.id .start none),
      .text (vertexName e.id .stop none)⟩]

/-- The graph of a rectangle: edge `k` runs from corner `k` to the next one. -/
def Element.rectangleGraph (e : Element α) (corners : List (Point α)) : Graph α where
  vertices := corners.mapIdx fun i p => e.vertex .corner (some i) p
  edges := (List.range 4).map fun k =>
    ⟨.text (edgeName e.id k), .text (vertexName e.id .corner (some k)),
      .text (vertexName e.id .corner (some ((k + 1) % 4)))⟩

/-- The circle around the center of an element. -/
def Element.ring (e : Element α) (radius : α) : Ring α :=
  ⟨.text (ringName e.id), .text (vertexName e.id .center none), radius⟩

/-- The graph of one element. It fails only for an arc with an infinite angle. -/
def Element.graph (e : Element α) : Except Error (Graph α) :=
  match e.shape with
  | .line start stop => .ok (e.lineGraph start stop)
  | .hline start length => .ok (e.lineGraph start (hlineEnd start length))
  | .vline start length => .ok (e.lineGraph start (vlineEnd start length))
  | .rectangle start stop => .ok (e.rectangleGraph (rectangleCorners start stop))
  | .circle center radius =>
    .ok { vertices := [e.vertex .center none center], rings := [e.ring radius] }
  | .arc center radius startAngle endAngle => do
    let start ← pointAtAngle center radius startAngle
    let stop ← pointAtAngle center radius endAngle
    .ok
      { vertices :=
          [e.vertex .center none center, e.vertex .start none start, e.vertex .stop none stop]
        rings := [e.ring radius] }
  | .spline points => .ok { vertices := points.mapIdx fun i p => e.vertex .control (some i) p }
  | .foreign => .ok {}

/-- The graph of a drawing, element after element. -/
def Graph.ofElements (elements : List (Element α)) : Except Error (Graph α) :=
  elements.foldlM (fun g e => return g.merge (← e.graph)) {}

end Drafting
