import Drafting.Document.Access
import Drafting.Scalar

/-!
The table of tolerances. Values are whole or floating-point numbers; the table can be checked for
values that make no sense.
-/

namespace Drafting

/-- The tolerances by name, in the order of declaration. -/
structure Tolerances where
  entries : List (String × Value)

namespace Tolerances

/-- The tolerances that are built in. -/
def standard : Tolerances where
  entries := [
    ("SKETCH_AUTO_COINCIDENCE", .float 5.0),
    ("SKETCH_AUTO_ANGLE", .float (Scalar.pi / 36.0)),
    ("SKETCH_AUTO_MIN_LENGTH", .float 10.0),
    ("SKETCH_IMPLICIT_AXIS", .float 1e-6),
    ("SOLVER_MAX_ITERATIONS", .int 50),
    ("SOLVER_CONVERGENCE", .float 1e-4),
    ("SOLVER_DAMPING", .float 0.01),
    ("SOLVER_ANGLE_STIFFNESS", .float 100.0),
    ("SOLVER_FD_STEP", .float 1e-4),
    ("SOLVER_MIN_RADIUS", .float 0.1),
    ("SOLVER_CONCENTRIC_RADIUS_DIFF", .float 1e-3),
    ("SOLVER_DEGREES_PER_RADIAN", .float 57.3),
    ("EPSILON_LENGTH_SQ", .float 1e-9),
    ("EPSILON_MAGNITUDE", .float 1e-9),
    ("EPSILON_DIRECTION", .float 1e-7),
    ("EPSILON_TANGENT_SQ", .float 1e-7),
    ("COMPARE_POINT", .float 1e-6)]

/-- The value of a tolerance, which must be in the table. -/
def get (t : Tolerances) (name : String) : Except Error Value :=
  match t.entries.lookup name with
  | some v => .ok v
  | none => .error .noAttributes

/-- The table with one value replaced, or added at the end. -/
def set (t : Tolerances) (name : String) (value : Value) : Tolerances where
  entries :=
    if t.entries.any (·.1 == name) then
      t.entries.map fun e => if e.1 == name then (name, value) else e
    else t.entries ++ [(name, value)]

/-- The number that a value is, for comparisons. Only numbers and truth values can be compared. -/
def numberOf (v : Value) : Except Error Float :=
  match v.number? with
  | some (.inl n) => .ok (Decimal.nearest (n < 0) n.natAbs 0)
  | some (.inr x) => .ok x
  | none => .error .wrongKind

/-- A complaint about a tolerance, if its value is bad. -/
def check (t : Tolerances) (name complaint : String) (bad : Float → Bool) :
    Except Error (List String) := do
  let v ← t.get name
  return if bad (← numberOf v) then [name ++ complaint ++ v.plain] else []

/-- What makes no sense in a table, in the order of declaration. -/
def issues (t : Tolerances) : Except Error (List String) := do
  let coincidence ← t.check "SKETCH_AUTO_COINCIDENCE" " muss positiv sein: " (· ≤ 0.0)
  let angle ← t.check "SKETCH_AUTO_ANGLE" " außerhalb sinnvoller Grenzen: "
    fun x => !(0.0 < x && x < Scalar.pi / 4.0)
  let iterations ← t.check "SOLVER_MAX_ITERATIONS" " zu klein: " (· < 1.0)
  let step ← t.check "SOLVER_FD_STEP" " zu grob: " (1e-2 < ·)
  let radius ← t.check "SOLVER_MIN_RADIUS" " muss positiv sein: " (· ≤ 0.0)
  return coincidence ++ angle ++ iterations ++ step ++ radius

end Tolerances

end Drafting
