import Drafting.System.Footprint

/-!
Difference quotients of the residuals.
-/

namespace Drafting.System

open Scalar

variable {α : Type} [Scalar α] {n k : Nat}

/-- The state with one variable moved by a step. -/
def nudge (x : State α n k) (j : Fin (2 * n + k)) (step : α) : State α n k :=
  x.set j.val (x.get j + step) j.isLt

/-- The column of the Jacobian for a variable: the forward difference quotients of the residuals in
fixed modes, and zeros for a coordinate of a pinned point. -/
def jacobianColumn (s : System α n k) (x : State α n k) (r : List α) (modes : List (Option Mode))
    (j : Fin (2 * n + k)) : List α :=
  if s.isPinned j then r.map fun _ => zero
  else
    let step := s.options.differenceStep
    List.zipWith (fun a b => (a - b) / step) (s.residuals (nudge x j step) modes) r

/-- The columns of the Jacobian. -/
def jacobian (s : System α n k) (x : State α n k) (r : List α) (modes : List (Option Mode)) :
    Vector (List α) (2 * n + k) :=
  Vector.ofFn (s.jacobianColumn x r modes)

/-- The columns of the Jacobian at a list of numbers, one for every number. Every free variable must
be there to be moved; no residual depends on what lies beyond the last variable. -/
def jacobianAt (s : System α n k) (xs r : List α) (modes : List (Option Mode)) :
    Except Error (List (List α)) := do
  reaches xs (s.free.map (·.val))
  let columns := (s.jacobian (State.ofList xs) r modes).toList
  return xs.mapIdx fun j _ => columns.getD j (r.map fun _ => zero)

end Drafting.System
