import Drafting.Constraint.Basic

/-!
Constructors for the constraints that a drawing program offers, one for each relation. Names and
target values are kept as they are given.
-/

namespace Drafting.Constraint

/-- A point, the center of a circle, or both, stay where they are. A name that does not count as true
is none. -/
def fixing (id point circle : Value) : Constraint :=
  let given (name : Value) : List Value := if name.truthy then [name] else []
  { kind := .fixed, id, points := given point, circles := given circle }

/-- Two points coincide. -/
def coincidence (id p q : Value) : Constraint :=
  { kind := .coincident, id, points := [p, q] }

/-- A point lies on the straight line through an edge. -/
def pointOnLine (id point line : Value) : Constraint :=
  { kind := .coincident, id, points := [point], lines := [line] }

/-- An edge is horizontal. -/
def horizontal (id line : Value) : Constraint :=
  { kind := .horizontal, id, lines := [line] }

/-- An edge is vertical. -/
def vertical (id line : Value) : Constraint :=
  { kind := .vertical, id, lines := [line] }

/-- Two edges are parallel. -/
def parallel (id l m : Value) : Constraint :=
  { kind := .parallel, id, lines := [l, m] }

/-- Two edges are perpendicular. -/
def perpendicular (id l m : Value) : Constraint :=
  { kind := .perpendicular, id, lines := [l, m] }

/-- Two edges have one length. -/
def equalLength (id l m : Value) : Constraint :=
  { kind := .equalLength, id, lines := [l, m] }

/-- Two circles have one center. -/
def concentric (id c d : Value) : Constraint :=
  { kind := .concentric, id, circles := [c, d] }

/-- Two circles touch, from inside or outside. -/
def tangentCircles (id c d : Value) : Constraint :=
  { kind := .tangent, id, circles := [c, d] }

/-- The straight line through an edge touches a circle. -/
def tangentLine (id line circle : Value) : Constraint :=
  { kind := .tangent, id, lines := [line], circles := [circle] }

/-- A point lies on a circle. -/
def pointOnCircle (id point circle : Value) : Constraint :=
  { kind := .tangent, id, points := [point], circles := [circle] }

/-- A point is the middle of an edge. -/
def midpoint (id point line : Value) : Constraint :=
  { kind := .midpoint, id, points := [point], lines := [line] }

/-- An edge has a length. -/
def length (id line value : Value) : Constraint :=
  { kind := .distance, id, lines := [line], value }

/-- Two points have a distance. -/
def distance (id p q value : Value) : Constraint :=
  { kind := .distance, id, points := [p, q], value }

/-- A point has a distance from the straight line through an edge. -/
def distancePointLine (id point line value : Value) : Constraint :=
  { kind := .distance, id, points := [point], lines := [line], value }

/-- The straight line through an edge has a distance from a circle. -/
def distanceLineCircle (id line circle value : Value) : Constraint :=
  { kind := .distance, id, lines := [line], circles := [circle], value }

/-- Two circles have a distance. -/
def distanceCircles (id c d value : Value) : Constraint :=
  { kind := .distance, id, circles := [c, d], value }

/-- Two edges enclose an angle, in degrees. -/
def angle (id l m value : Value) : Constraint :=
  { kind := .angle, id, lines := [l, m], value }

/-- An edge has an angle to the first axis, in degrees. -/
def lineAngle (id line value : Value) : Constraint :=
  { kind := .angle, id, lines := [line], value }

/-- A circle has a radius. -/
def radius (id circle value : Value) : Constraint :=
  { kind := .radius, id, circles := [circle], value }

end Drafting.Constraint
