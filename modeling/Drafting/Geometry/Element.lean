import Drafting.Scalar

/-!
Elements: what a user draws. An element has an identifier and one of seven shapes; a foreign shape
stands for anything else that a drawing may carry along, and is never taken apart.
-/

namespace Drafting

/-- A position in the plane of the drawing. -/
structure Point (α : Type) where
  x : α
  y : α
  deriving DecidableEq, Repr

/-- The shape of an element. Angles are in radians; the lengths of axis-parallel lines have a
sign. -/
inductive Shape (α : Type) where
  | line (start stop : Point α)
  | hline (start : Point α) (length : α)
  | vline (start : Point α) (length : α)
  | rectangle (start stop : Point α)
  | circle (center : Point α) (radius : α)
  | arc (center : Point α) (radius startAngle endAngle : α)
  | spline (points : List (Point α))
  | foreign
  deriving DecidableEq, Repr

/-- A drawn element. -/
structure Element (α : Type) where
  id : Value
  shape : Shape α

/-- Equality of points, coordinate by coordinate. -/
def Point.agrees {α : Type} [BEq α] (p q : Point α) : Bool := p.x == q.x && p.y == q.y

/-- Equality of shapes, field by field. A foreign shape equals nothing. -/
def Shape.agrees {α : Type} [BEq α] : Shape α → Shape α → Bool
  | line p q, line p' q' => p.agrees p' && q.agrees q'
  | hline p length, hline p' length' => p.agrees p' && length == length'
  | vline p length, vline p' length' => p.agrees p' && length == length'
  | rectangle p q, rectangle p' q' => p.agrees p' && q.agrees q'
  | circle p radius, circle p' radius' => p.agrees p' && radius == radius'
  | arc p radius a b, arc p' radius' a' b' =>
    p.agrees p' && radius == radius' && a == a' && b == b'
  | spline ps, spline ps' =>
    ps.length == ps'.length && (ps.zip ps').all fun (p, p') => p.agrees p'
  | _, _ => false

/-- Equality of elements, field by field. -/
def Element.agrees {α : Type} [BEq α] (e e' : Element α) : Bool :=
  e.id == e'.id && e.shape.agrees e'.shape

/-- The seven kinds of shapes. -/
inductive ElementKind where
  | line
  | hline
  | vline
  | rectangle
  | circle
  | arc
  | spline
  deriving DecidableEq, Repr

namespace ElementKind

/-- Every kind, in the order of declaration. -/
def all : List ElementKind := [line, hline, vline, rectangle, circle, arc, spline]

/-- The tag of a kind in a saved drawing. -/
def tag : ElementKind → String
  | line => "line"
  | hline => "hline"
  | vline => "vline"
  | rectangle => "rectangle"
  | circle => "circle"
  | arc => "arc"
  | spline => "spline"

/-- The kind with a tag. -/
def ofTag? (s : String) : Option ElementKind := all.find? (·.tag == s)

theorem ofTag?_tag (k : ElementKind) : ofTag? k.tag = some k := by
  cases k <;> decide

end ElementKind

/-- The kind of a shape. -/
def Shape.kind? {α : Type} : Shape α → Option ElementKind
  | line .. => some .line
  | hline .. => some .hline
  | vline .. => some .vline
  | rectangle .. => some .rectangle
  | circle .. => some .circle
  | arc .. => some .arc
  | spline .. => some .spline
  | foreign => none

variable {α : Type} [Scalar α]

open Scalar

/-- The distance of two points. -/
def Point.distance (p q : Point α) : α := hypot (p.x - q.x) (p.y - q.y)

/-- The end of a horizontal line. -/
def hlineEnd (start : Point α) (length : α) : Point α := ⟨start.x + length, start.y⟩

/-- The end of a vertical line. -/
def vlineEnd (start : Point α) (length : α) : Point α := ⟨start.x, start.y + length⟩

/-- The corners of a rectangle in circular order, from `start` along the first axis. -/
def rectangleCorners {α : Type} (start stop : Point α) : List (Point α) :=
  [⟨start.x, start.y⟩, ⟨stop.x, start.y⟩, ⟨stop.x, stop.y⟩, ⟨start.x, stop.y⟩]

/-- The extent of a rectangle along the first axis. -/
def rectangleWidth (start stop : Point α) : α := abs (stop.x - start.x)

/-- The extent of a rectangle along the second axis. -/
def rectangleHeight (start stop : Point α) : α := abs (stop.y - start.y)

/-- The point of a circle in the direction of an angle, which must not be infinite. -/
def pointAtAngle (center : Point α) (radius angle : α) : Except Error (Point α) :=
  if isInfinite angle then .error .infiniteAngle
  else .ok ⟨center.x + radius * cos angle, center.y + radius * sin angle⟩

/-- Shapes with the usual measures where only points are given. -/
def Shape.default? (kind : ElementKind) (points : List (Point α)) : Option (Shape α) :=
  let ten : α := decimal 10 0
  match kind, points with
  | .line, [p, q] => some (.line p q)
  | .rectangle, [p, q] => some (.rectangle p q)
  | .hline, [p] => some (.hline p ten)
  | .vline, [p] => some (.vline p ten)
  | .circle, [p] => some (.circle p ten)
  | .arc, [p] => some (.arc p ten zero (pi / two))
  | .spline, [] => some (.spline [])
  | _, _ => none

end Drafting
