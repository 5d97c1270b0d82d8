import Drafting.Graph.Extraction

/-!
Writing solved points and circles back to the elements they came from. A coordinate that is not
finite leaves the element's own in place. Lines need their end points and circles and arcs their
circle; other missing parts leave the element as it is.
-/

namespace Drafting

open Scalar

variable {α : Type} [Scalar α]

/-- Solved points and circles, to be looked up by name. Of several with one name the last counts. -/
structure Solved (α : Type) where
  vertices : List (Vertex α)
  rings : List (Ring α)

namespace Solved

/-- The names of all solved points and circles, in this order. -/
def names (s : Solved α) : List Value := s.vertices.map (·.id) ++ s.rings.map (·.id)

/-- The last solved point with a name. -/
def vertex? (s : Solved α) (id : Value) : Option (Vertex α) :=
  s.vertices.reverse.find? (·.id == id)

/-- The last solved circle with a name. -/
def ring? (s : Solved α) (id : Value) : Option (Ring α) :=
  s.rings.reverse.find? (·.id == id)

/-- The center of a solved circle, if it is there. -/
def center? (s : Solved α) (r : Ring α) : Except Error (Option (Vertex α)) :=
  return s.vertex? (← r.center.asKey)

/-- The position of a solved point, with a fallback for coordinates that are not finite. -/
def position (v : Vertex α) (fallback : Point α) : Point α :=
  ⟨finiteOr v.x fallback.x, finiteOr v.y fallback.y⟩

/-- The position of a point that an element needs. -/
def point (s : Solved α) (element : Value) (role : Role) (fallback : Point α) :
    Except Error (Point α) :=
  let id : Value := .text (vertexName element role none)
  match s.vertex? id with
  | some v => .ok (position v fallback)
  | none => .error (.dangling .point id element.mention)

/-- The circle that an element needs. -/
def ring (s : Solved α) (element : Value) : Except Error (Ring α) :=
  let id : Value := .text (ringName element)
  match s.ring? id with
  | some r => .ok r
  | none => .error (.dangling .circle id element.mention)

/-- The solved corners of a rectangle that are there and finite. -/
def corners (s : Solved α) (element : Value) : List (Point α) :=
  (List.range 4).filterMap fun i =>
    match s.vertex? (.text (vertexName element .corner (some i))) with
    | some v => if isFinite v.x && isFinite v.y then some ⟨v.x, v.y⟩ else none
    | none => none

/-- The least number of a list that starts with `a`. -/
def least (a : α) (rest : List α) : α := rest.foldl smaller a

/-- The greatest number of a list that starts with `a`. -/
def greatest (a : α) (rest : List α) : α := rest.foldl larger a

/-- The rectangle around at least two corners. -/
def around? : List (Point α) → Option (Shape α)
  | p :: q :: rest =>
    let xs := (q :: rest).map (·.x)
    let ys := (q :: rest).map (·.y)
    some (.rectangle ⟨least p.x xs, least p.y ys⟩ ⟨greatest p.x xs, greatest p.y ys⟩)
  | _ => none

/-- The shape of an element at the solved positions; none if the element stays as it is. -/
def shape? (s : Solved α) (e : Element α) : Except Error (Option (Shape α)) :=
  match e.shape with
  | .line start stop =>
    return some (.line (← s.point e.id .start start) (← s.point e.id .stop stop))
  | .hline start length => do
    let p ← s.point e.id .start start
    let q ← s.point e.id .stop (hlineEnd start length)
    return some (.hline p (finiteOr (q.x - p.x) length))
  | .vline start length => do
    let p ← s.point e.id .start start
    let q ← s.point e.id .stop (vlineEnd start length)
    return some (.vline p (finiteOr (q.y - p.y) length))
  | .rectangle .. => return around? (s.corners e.id)
  | .circle center radius => do
    let r ← s.ring e.id
    return (← s.center? r).map fun v =>
      .circle (position v center) (finiteOr r.radius radius)
  | .arc center radius startAngle endAngle => do
    let r ← s.ring e.id
    let p ← s.point e.id .start (← pointAtAngle center radius startAngle)
    let q ← s.point e.id .stop (← pointAtAngle center radius endAngle)
    return (← s.center? r).map fun v =>
      let c := position v center
      .arc c (finiteOr r.radius radius)
        (finiteOr (atan2 (p.y - c.y) (p.x - c.x)) startAngle)
        (finiteOr (atan2 (q.y - c.y) (q.x - c.x)) endAngle)
  | .spline points =>
    return some (.spline (points.mapIdx fun i p =>
      match s.vertex? (.text (vertexName e.id .control (some i))) with
      | some v => position v p
      | none => p))
  | .foreign => return none

/-- An element at the solved positions. -/
def element (s : Solved α) (e : Element α) : Except Error (Element α) :=
  return { e with shape := (← s.shape? e).getD e.shape }

/-- The elements at the solved positions, in order. All names of solved parts must be keys. -/
def elements (s : Solved α) (es : List (Element α)) : Except Error (List (Element α)) := do
  let _ ← s.names.mapM Value.asKey
  es.mapM s.element

end Solved

end Drafting
