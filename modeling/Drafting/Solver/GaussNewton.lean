import Drafting.Solver.Jacobian
import Drafting.Solver.NormalEquations
import Drafting.Solver.Outcome

/-!
The damped Gauss–Newton method. Each step chooses the modes of the equations at the current state,
stops if the residuals are small, and otherwise moves by the solution of the damped normal
equations and raises every radius to the least one. A step that is not finite ends the run at the
last state that was reached.
-/

namespace Drafting.GaussNewton

open Scalar

variable {α : Type} [Scalar α] {n k : Nat}

/-- What happens at a state. -/
inductive Move (α : Type) (n k : Nat) where
  | satisfied
  | blocked
  | to (x : State α n k)

/-- The state moved by a step, with every radius raised to the least one. -/
def moved (s : System α n k) (x dx : State α n k) : State α n k :=
  State.clampRadii s.options.minRadius (Vector.ofFn fun i => x.get i + dx.get i)

/-- The move from a state. -/
def move (solve : LinearSolver α) (s : System α n k) (x : State α n k) : Move α n k :=
  let modes := s.modes x
  let r := s.residuals x modes
  if lt (rms r) s.options.tolerance then .satisfied
  else
    match NormalEquations.step? solve (s.jacobian x r modes) r s.options.damping s.mask with
    | some dx => if NormalEquations.allFinite dx then .to (moved s x dx) else .blocked
    | none => .blocked

/-- A state with the number of steps that led to it and how the run ended there. -/
structure Halt (α : Type) (n k : Nat) where
  state : State α n k
  steps : Nat
  status : Status

/-- At most `fuel` steps from a state that was reached after `steps` steps. -/
def run (solve : LinearSolver α) (s : System α n k) : Nat → State α n k → Nat → Halt α n k
  | 0, x, steps => ⟨x, steps, .maxIterations⟩
  | fuel + 1, x, steps =>
    match move solve s x with
    | .satisfied => ⟨x, steps, .converged⟩
    | .blocked => ⟨x, steps, .diverged⟩
    | .to y => run solve s fuel y (steps + 1)

/-- How a run ended, knowing what is left of the residuals: one that used up its steps has still
converged if they are small. -/
def finalStatus (s : System α n k) (halt : Status) (error : α) : Status :=
  if halt = .maxIterations ∧ lt error s.options.tolerance = true then .converged else halt

/-- The outcome at the state where a run ended, with the modes chosen anew. -/
def outcome (s : System α n k) (halt : Halt α n k) : Outcome α n k :=
  let r := s.residuals halt.state (s.modes halt.state)
  let error := rms r
  let status := finalStatus s halt.status error
  let (vertices, rings) := s.solution halt.state
  { vertices, rings
    success := status == .converged
    status
    iterations := halt.steps
    error
    residualCount := r.length }

/-- The method from the initial state. -/
def solve (linear : LinearSolver α) (s : System α n k) : Outcome α n k :=
  outcome s (run linear s s.options.maxIterations.toNat s.initial 0)

/-- The message about an outcome. -/
def message {n k : Nat} (o : Outcome Float n k) : String :=
  let verb := match o.status with
    | .converged => "Konvergiert"
    | .diverged => "Divergiert"
    | _ => "Nicht konvergiert"
  verb ++ " nach " ++ toString o.iterations ++ " Iterationen (RMS: " ++
    Decimal.scientific 2 o.error ++ ")"

end Drafting.GaussNewton
