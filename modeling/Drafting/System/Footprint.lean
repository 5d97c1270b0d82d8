import Drafting.System.State

/-!
Evaluating a system at a list of numbers. The numbers are the variables of a state in order. A list
that is too short will do as long as nothing beyond its end is read, and numbers beyond the last
variable are not looked at. What an equation reads is its footprint.
-/

namespace Drafting

open Scalar

variable {α : Type} [Scalar α] {n k : Nat}

namespace Equation

/-- The places of the coordinates of a point. -/
def pointPlaces (p : Fin n) : List Nat := [2 * p.val, 2 * p.val + 1]

/-- The places of the coordinates of the ends of a line. -/
def linePlaces (l : LineRef n) : List Nat := pointPlaces l.p1 ++ pointPlaces l.p2

/-- The places of the coordinates of the center of a circle. -/
def centerPlaces (c : CircleRef n k) : List Nat := pointPlaces c.center

/-- The place of the radius of a circle. -/
def radiusPlace (c : CircleRef n k) : Nat := 2 * n + c.radius.val

/-- The places of the center and of the radius of a circle. -/
def circlePlaces (c : CircleRef n k) : List Nat := centerPlaces c ++ [radiusPlace c]

/-- The places that a relation between a line and a circle reads: the radius only if the line has a
distance to anything. -/
def lineCirclePlaces (x : Placement α n k) (l : LineRef n) (c : CircleRef n k) (guard : α) :
    List Nat :=
  centerPlaces c ++ linePlaces l ++
    (if (x.lineDistance? l (x.point c.center) guard).isSome then [radiusPlace c] else [])

/-- The places in a state that the residuals of an equation read at a placement. -/
def footprint (x : Placement α n k) : Equation n k → List Nat
  | levelPoints p q => [2 * p.val + 1, 2 * q.val + 1]
  | plumbPoints p q => [2 * p.val, 2 * q.val]
  | levelLine l | plumbLine l | lineLength l | lineAngle l => linePlaces l
  | samePoint p q | pointDistance p q => pointPlaces p ++ pointPlaces q
  | pointOnLine p l | pointLineDistance p l | midpoint p l => pointPlaces p ++ linePlaces l
  | centerOnLine c l => centerPlaces c ++ linePlaces l
  | pointAtCenter p c => pointPlaces p ++ centerPlaces c
  | sameCenter c d => centerPlaces c ++ centerPlaces d
  | lineCircleDistance l c => lineCirclePlaces x l c distanceGuard
  | tangentLine l c => lineCirclePlaces x l c tangentGuard
  | circleDistance c d | tangentCircles c d => circlePlaces c ++ circlePlaces d
  | radius c => [radiusPlace c]
  | angleBetween l m | parallel l m | perpendicular l m | equalLength l m =>
    linePlaces l ++ linePlaces m
  | pointOnCircle p c => pointPlaces p ++ circlePlaces c

/-- Whether an equation has modes. They are chosen by what the residuals read. -/
def hasModes : Equation n k → Bool
  | circleDistance .. | tangentCircles .. => true
  | _ => false

end Equation

namespace State

/-- The state that a list of numbers begins with, zero where it has ended. -/
def ofList (xs : List α) : State α n k := Vector.ofFn fun i => xs.getD i.val zero

theorem ofList_toList (x : State α n k) : ofList x.toList = x := by
  ext i hi
  simp [ofList]

/-- The numbers of a list, with the radii among them raised to the least one. -/
def clampList (n k : Nat) (minRadius : α) (xs : List α) : List α :=
  xs.mapIdx fun i a => if 2 * n ≤ i ∧ i < 2 * n + k then atLeast minRadius a else a

end State

namespace System

/-- Whether a list of numbers reaches all of some places. -/
def reaches (xs : List α) (places : List Nat) : Except Error Unit :=
  if places.all (· < xs.length) then .ok () else .error .tooShort

/-- The modes of the equations at a list of numbers. -/
def modesAt (s : System α n k) (xs : List α) : Except Error (List (Option Mode)) := do
  let x := State.ofList xs
  reaches xs ((s.terms.filter (·.equation.hasModes)).flatMap (·.equation.footprint x.placement))
  return s.modes x

/-- The residuals at a list of numbers, in given modes. -/
def residualsAt (s : System α n k) (xs : List α) (modes : List (Option Mode)) :
    Except Error (List α) := do
  let x := State.ofList xs
  reaches xs ((s.terms.zip modes).flatMap (·.1.equation.footprint x.placement))
  return s.residuals x modes

/-- The points and circles where a list of numbers puts them. Every free variable must be there. -/
def solutionAt (s : System α n k) (xs : List α) :
    Except Error (Vector (Vertex α) n × Vector (Ring α) k) := do
  reaches xs (s.free.map (·.val))
  return s.solution (State.ofList xs)

end System

end Drafting
