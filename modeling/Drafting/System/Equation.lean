import Drafting.System.Options
import Drafting.Geometry.Element

/-!
Equations: the relations between coordinates and radii that constraints stand for. An equation
names points, lines and circles by their place in the graph and gives, for a placement of all of
them, one to three residuals, which vanish where the relation holds.

Two relations between circles have different residuals depending on how the circles lie. The mode
is chosen once for a step and kept while the step is computed, so that the number of residuals
does not change under the difference quotients. Where geometry is degenerate, the residual is zero.
-/

namespace Drafting

/-- A line by the places of its end points. -/
structure LineRef (n : Nat) where
  p1 : Fin n
  p2 : Fin n
  deriving DecidableEq, Repr

/-- A circle by the places of its center and of its radius. -/
structure CircleRef (n k : Nat) where
  center : Fin n
  radius : Fin k
  deriving DecidableEq, Repr

/-- How two circles lie to each other. -/
inductive Mode where
  | external
  | internal
  | concentric
  deriving DecidableEq, Repr

namespace Mode

/-- Every mode, in the order of declaration. -/
def all : List Mode := [external, internal, concentric]

/-- The name of a mode. -/
def name : Mode → String
  | external => "external"
  | internal => "internal"
  | concentric => "concentric"

/-- The mode with a name. Equations take any other name for none. -/
def ofName? (s : String) : Option Mode := all.find? (·.name == s)

theorem ofName?_name (m : Mode) : ofName? m.name = some m := by
  cases m <;> decide

end Mode

/-- A relation between `n` points and `k` circles. -/
inductive Equation (n k : Nat) where
  | levelPoints (p q : Fin n)
  | levelLine (l : LineRef n)
  | plumbPoints (p q : Fin n)
  | plumbLine (l : LineRef n)
  | samePoint (p q : Fin n)
  | pointOnLine (p : Fin n) (l : LineRef n)
  | centerOnLine (c : CircleRef n k) (l : LineRef n)
  | pointAtCenter (p : Fin n) (c : CircleRef n k)
  | sameCenter (c d : CircleRef n k)
  | lineLength (l : LineRef n)
  | lineCircleDistance (l : LineRef n) (c : CircleRef n k)
  | circleDistance (c d : CircleRef n k)
  | pointDistance (p q : Fin n)
  | pointLineDistance (p : Fin n) (l : LineRef n)
  | radius (c : CircleRef n k)
  | angleBetween (l m : LineRef n)
  | lineAngle (l : LineRef n)
  | parallel (l m : LineRef n)
  | perpendicular (l m : LineRef n)
  | equalLength (l m : LineRef n)
  | tangentLine (l : LineRef n) (c : CircleRef n k)
  | tangentCircles (c d : CircleRef n k)
  | pointOnCircle (p : Fin n) (c : CircleRef n k)
  | midpoint (p : Fin n) (l : LineRef n)
  deriving DecidableEq, Repr

/-- Where all points are and how large all circles are. -/
structure Placement (α : Type) (n k : Nat) where
  point : Fin n → Point α
  radius : Fin k → α

open Scalar

variable {α : Type} [Scalar α] {n k : Nat}

namespace Placement

/-- The vector from the first to the second end of a line. -/
def direction (x : Placement α n k) (l : LineRef n) : Point α :=
  let a := x.point l.p1
  let b := x.point l.p2
  ⟨b.x - a.x, b.y - a.y⟩

/-- The length of a vector. -/
def magnitude (v : Point α) : α := sqrt (v.x * v.x + v.y * v.y)

/-- The length of a line. -/
def length (x : Placement α n k) (l : LineRef n) : α := magnitude (x.direction l)

/-- The vector from the center of one circle to that of another. -/
def centerVector (x : Placement α n k) (c d : CircleRef n k) : Point α :=
  let a := x.point c.center
  let b := x.point d.center
  ⟨b.x - a.x, b.y - a.y⟩

/-- The equation of the straight line through a line, evaluated at a point. It is the distance
times the length of the line, with a sign for the side. -/
def lineValue (x : Placement α n k) (l : LineRef n) (p : Point α) : α :=
  let a := x.point l.p1
  let b := x.point l.p2
  (a.y - b.y) * p.x + (b.x - a.x) * p.y + (a.x * b.y - b.x * a.y)

/-- The distance of a point from the straight line through a line, unless the square of the length
of the line is at most `guard`. -/
def lineDistance? (x : Placement α n k) (l : LineRef n) (p : Point α) (guard : α) : Option α :=
  let a := x.point l.p1
  let b := x.point l.p2
  let dx := b.x - a.x
  let dy := b.y - a.y
  let square := dx * dx + dy * dy
  if le square guard then none
  else some (abs (dy * p.x - dx * p.y + b.x * a.y - b.y * a.x) / sqrt square)

/-- The directions of two lines and the product of their lengths, unless one of these is at most
`guard`. -/
def directions? (x : Placement α n k) (l m : LineRef n) (guard : α) :
    Option (Point α × Point α × α) :=
  let v := x.direction l
  let w := x.direction m
  let a := magnitude v
  let b := magnitude w
  if le a guard || le b guard then none else some (v, w, a * b)

end Placement

/-- Lines whose squared length is at most this have no distance to anything. -/
def distanceGuard : α := decimal 1 9

/-- Lines that are at most this long enclose no angle. -/
def angleGuard : α := decimal 1 9

/-- Lines that are at most this long are neither parallel nor perpendicular. -/
def directionGuard : α := decimal 1 7

/-- Lines whose squared length is at most this touch no circle. -/
def tangentGuard : α := decimal 1 7

/-- Circles whose radii differ by less than this touch from inside only if they coincide. -/
def concentricDifference : α := decimal 1 3

/-- The degrees that an angle equation takes for one radian. -/
def degreesPerRadian : α := decimal 573 1

/-- The weight of an equation between angles in degrees. -/
def angleWeight (o : Options α) : α := o.angleStiffness / degreesPerRadian

namespace Equation

/-- The mode in which two circles with a distance are: nested if that is nearer to the target. -/
def distanceMode (x : Placement α n k) (c d : CircleRef n k) (target : α) : Mode :=
  let dist := Placement.magnitude (x.centerVector c d)
  let r := x.radius c.radius
  let s := x.radius d.radius
  let outside := abs (dist - (r + s) - target)
  let inside := abs (abs (r - s) - dist - target)
  if lt inside outside then .internal else .external

/-- The mode in which two circles touch: the nearer one, and for equal radii they coincide instead
of touching from inside. -/
def tangentMode (x : Placement α n k) (c d : CircleRef n k) : Mode :=
  let dist := Placement.magnitude (x.centerVector c d)
  let r := x.radius c.radius
  let s := x.radius d.radius
  let difference := abs (r - s)
  if lt (abs (dist - (r + s))) (abs (dist - difference)) then .external
  else if lt difference concentricDifference then .concentric
  else .internal

/-- The mode of an equation at a placement, for those that have modes. -/
def mode? (x : Placement α n k) (target : α) : Equation n k → Option Mode
  | circleDistance c d => some (distanceMode x c d target)
  | tangentCircles c d => some (tangentMode x c d)
  | _ => none

/-- The residuals of two circles at a distance: nested circles share their center. -/
def circleDistanceResiduals (x : Placement α n k) (c d : CircleRef n k) (target : α)
    (mode : Option Mode) : List α :=
  let v := x.centerVector c d
  let r := x.radius c.radius
  let s := x.radius d.radius
  match mode with
  | some .internal => [v.x, v.y, abs (r - s) - target]
  | _ => [Placement.magnitude v - (r + s) - target]

/-- The residuals of two circles that touch. -/
def tangentCirclesResiduals (x : Placement α n k) (c d : CircleRef n k) (mode : Option Mode) :
    List α :=
  let v := x.centerVector c d
  let r := x.radius c.radius
  let s := x.radius d.radius
  match mode with
  | some .external => [Placement.magnitude v - (r + s)]
  | some .concentric => [v.x, v.y]
  | _ => [Placement.magnitude v - abs (r - s)]

/-- The cosine of the angle between two vectors with a product of lengths, kept between −1 and 1. -/
def cosineBetween (v w : Point α) (lengths : α) : α :=
  larger (-one) (smaller one ((v.x * w.x + v.y * w.y) / lengths))

/-- The angle between two vectors in degrees. -/
def angleDegrees (v w : Point α) (lengths : α) : α := degrees (acos (cosineBetween v w lengths))

/-- A residual that is zero where geometry is degenerate. -/
def orZero (r : Option α) : List α := [r.getD zero]

/-- The residuals of an equation at a placement. Squares are products of a number with itself, in
distances of points as well; a power function may round such a square differently in its last
place. -/
def residuals (o : Options α) (x : Placement α n k) (target : α) (mode : Option Mode) :
    Equation n k → List α
  | levelPoints p q => [(x.point q).y - (x.point p).y]
  | levelLine l => [(x.point l.p2).y - (x.point l.p1).y]
  | plumbPoints p q => [(x.point q).x - (x.point p).x]
  | plumbLine l => [(x.point l.p2).x - (x.point l.p1).x]
  | samePoint p q => [(x.point q).x - (x.point p).x, (x.point q).y - (x.point p).y]
  | pointOnLine p l => [x.lineValue l (x.point p)]
  | centerOnLine c l => [x.lineValue l (x.point c.center)]
  | pointAtCenter p c =>
    [(x.point p).x - (x.point c.center).x, (x.point p).y - (x.point c.center).y]
  | sameCenter c d => [(x.centerVector c d).x, (x.centerVector c d).y]
  | lineLength l => [x.length l - target]
  | lineCircleDistance l c =>
    orZero ((x.lineDistance? l (x.point c.center) distanceGuard).map fun dist =>
      dist - x.radius c.radius - target)
  | circleDistance c d => circleDistanceResiduals x c d target mode
  | pointDistance p q =>
    let dx := (x.point q).x - (x.point p).x
    let dy := (x.point q).y - (x.point p).y
    [sqrt (dx * dx + dy * dy) - target]
  | pointLineDistance p l =>
    orZero ((x.lineDistance? l (x.point p) distanceGuard).map fun dist => dist - target)
  | radius c => [x.radius c.radius - target]
  | angleBetween l m =>
    orZero ((x.directions? l m angleGuard).map fun (v, w, lengths) =>
      (angleDegrees v w lengths - target) * angleWeight o)
  | lineAngle l =>
    let v := x.direction l
    [(degrees (atan2 v.y v.x) - target) * angleWeight o]
  | parallel l m =>
    orZero ((x.directions? l m directionGuard).map fun (v, w, lengths) =>
      (v.x * w.y - v.y * w.x) / lengths * o.angleStiffness)
  | perpendicular l m =>
    orZero ((x.directions? l m directionGuard).map fun (v, w, lengths) =>
      (v.x * w.x + v.y * w.y) / lengths * o.angleStiffness)
  | equalLength l m => [x.length l - x.length m]
  | tangentLine l c =>
    orZero ((x.lineDistance? l (x.point c.center) tangentGuard).map fun dist =>
      dist - x.radius c.radius)
  | tangentCircles c d => tangentCirclesResiduals x c d mode
  | pointOnCircle p c =>
    let dx := (x.point p).x - (x.point c.center).x
    let dy := (x.point p).y - (x.point c.center).y
    [sqrt (dx * dx + dy * dy) - x.radius c.radius]
  | midpoint p l =>
    let a := x.point l.p1
    let b := x.point l.p2
    [(x.point p).x - (a.x + b.x) / two, (x.point p).y - (a.y + b.y) / two]

end Equation

end Drafting
