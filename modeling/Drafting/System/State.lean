import Drafting.System.Compile

/-!
The state of a solve: one vector with the two coordinates of every point in turn and then the
radius of every circle. Residuals are evaluated at states, and a state is written back to points
and circles at the end.
-/

namespace Drafting

open Scalar

variable {α : Type} [Scalar α] {n k : Nat}

/-- The coordinates of `n` points and the radii of `k` circles. -/
abbrev State (α : Type) (n k : Nat) : Type := Vector α (2 * n + k)

namespace State

/-- A state that gives every coordinate and every radius. -/
def build {α : Type} (coordinate : Fin n → Point α) (radius : Fin k → α) : State α n k :=
  Vector.ofFn fun i =>
    if h : i.val < 2 * n then
      let p := coordinate ⟨i.val / 2, by omega⟩
      if i.val % 2 = 0 then p.x else p.y
    else radius ⟨i.val - 2 * n, by omega⟩

/-- Where a state puts every point, and how large it makes every circle. -/
def placement {α : Type} (x : State α n k) : Placement α n k where
  point p := ⟨x.get ⟨2 * p.val, by omega⟩, x.get ⟨2 * p.val + 1, by omega⟩⟩
  radius c := x.get ⟨2 * n + c.val, by omega⟩

/-- The state with every radius raised to the least one. -/
def clampRadii (minRadius : α) (x : State α n k) : State α n k :=
  Vector.ofFn fun i => if i.val < 2 * n then x.get i else atLeast minRadius (x.get i)

end State

namespace System

/-- The state in which the points and circles are given. -/
def initial (s : System α n k) : State α n k :=
  State.clampRadii s.options.minRadius <|
    State.build (fun p => ⟨(s.vertices.get p).x, (s.vertices.get p).y⟩) fun c =>
      (s.rings.get c).radius

/-- Whether a variable is a coordinate of a pinned point. -/
def isPinned (s : System α n k) (i : Fin (2 * n + k)) : Bool :=
  if h : i.val < 2 * n then s.pinned.get ⟨i.val / 2, by omega⟩ else false

/-- Which variables are coordinates of pinned points. -/
def mask (s : System α n k) : Vector Bool (2 * n + k) := Vector.ofFn s.isPinned

/-- The variables that are free to move, in order. -/
def free (s : System α n k) : List (Fin (2 * n + k)) :=
  (List.finRange (2 * n + k)).filter fun i => !s.isPinned i

/-- The modes of the equations at a state. -/
def modes (s : System α n k) (x : State α n k) : List (Option Mode) :=
  s.terms.map fun t => t.equation.mode? x.placement t.target

/-- The residuals at a state, in given modes. Equations beyond the end of the list of modes are
left out. -/
def residuals (s : System α n k) (x : State α n k) (modes : List (Option Mode)) : List α :=
  (s.terms.zip modes).flatMap fun (t, mode) =>
    t.equation.residuals s.options x.placement t.target mode

/-- The point at a place, moved to where a state puts it. A pinned point stays and is marked as
fixed; a coordinate that is not finite falls back to what it was. -/
def solvedVertex (s : System α n k) (x : State α n k) (i : Fin n) : Vertex α :=
  let v := s.vertices.get i
  if s.pinned.get i then { v with fixed := .bool true }
  else
    let p := x.placement.point i
    { v with x := finiteOr p.x v.x, y := finiteOr p.y v.y }

/-- The circle at a place with the radius of a state, but no less than the least one. -/
def solvedRing (s : System α n k) (x : State α n k) (i : Fin k) : Ring α :=
  let c := s.rings.get i
  { c with radius := larger (finiteOr (x.placement.radius i) c.radius) s.options.minRadius }

/-- The points and circles where a state puts them. -/
def solution (s : System α n k) (x : State α n k) : Vector (Vertex α) n × Vector (Ring α) k :=
  (Vector.ofFn (s.solvedVertex x), Vector.ofFn (s.solvedRing x))

end System

/-- The root mean square of residuals; zero if there are none. The squares are added from the left; a
sum that is taken in pairs may differ in its last places. -/
def rms (r : List α) : α :=
  if r.isEmpty then zero
  else sqrt (sum (r.map fun a => a * a) / decimal r.length 0)

end Drafting
