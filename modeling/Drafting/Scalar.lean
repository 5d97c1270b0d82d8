import Drafting.Document.Access
import Drafting.Binary

/-!
Scalars: the numbers a drawing is computed with. The geometry, the constraint equations and the
solver are written over this class, so that one definition has a meaning both in floating-point
and in exact arithmetic. Comparisons are Boolean, because an undefined number compares as false
in both directions.
-/

namespace Drafting

/-- A type of numbers with the operations that drawings need. -/
class Scalar (α : Type) extends Add α, Sub α, Mul α, Div α, Neg α where
  /-- The number `n / 10 ^ places`. -/
  decimal : Int → Nat → α
  lt : α → α → Bool
  le : α → α → Bool
  abs : α → α
  sqrt : α → α
  hypot : α → α → α
  acos : α → α
  cos : α → α
  sin : α → α
  /-- The angle of the vector with the given ordinate and abscissa. -/
  atan2 : α → α → α
  /-- Half the length of the unit circle. -/
  pi : α
  isFinite : α → Bool
  isInfinite : α → Bool
  /-- The number in a document value. -/
  read : Value → Except Error α

namespace Scalar

variable {α : Type} [Scalar α]

/-- The neutral element of addition. -/
def zero : α := decimal 0 0

/-- The neutral element of multiplication. -/
def one : α := decimal 1 0

/-- The number of halves in a whole. -/
def two : α := decimal 2 0

/-- An angle in degrees. -/
def degrees (x : α) : α := x * (decimal 180 0 / pi)

/-- The larger of two numbers, the first one unless the second is larger. -/
def larger (a b : α) : α := if lt a b then b else a

/-- The smaller of two numbers, the first one unless the second is smaller. -/
def smaller (a b : α) : α := if lt b a then b else a

/-- The number `a`, raised to `floor` if it is below. It stays undefined if either is. -/
def atLeast (floor a : α) : α := if le floor a || !le a a then a else floor

/-- A number if it is finite, and a fallback otherwise. -/
def finiteOr (a fallback : α) : α := if isFinite a then a else fallback

/-- The sum of a list of numbers. -/
def sum (xs : List α) : α := xs.foldl (· + ·) zero

/-- The scalar product of two lists of numbers. -/
def dot (xs ys : List α) : α := sum (List.zipWith (· * ·) xs ys)

end Scalar

instance : Scalar Float where
  decimal n places :=
    let x := Float.ofScientific n.natAbs true places
    if n < 0 then -x else x
  lt a b := a < b
  le a b := a ≤ b
  abs := Float.abs
  sqrt := Float.sqrt
  hypot := hypotenuse
  acos := Float.acos
  cos := Float.cos
  sin := Float.sin
  atan2 := Float.atan2
  pi := 3.141592653589793
  isFinite := Float.isFinite
  isInfinite := Float.isInf
  read := Value.toFloat

end Drafting
