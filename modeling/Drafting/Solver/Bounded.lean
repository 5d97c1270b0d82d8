import Drafting.Fit.Basic
import Drafting.Solver.Outcome

/-!
Solving by a bounded least squares optimiser. The modes of the equations are those of the initial
state throughout, only the free variables are handed over, and radii are bounded below by the
least one. The optimiser may be any function; what it answers is checked before it is used.
-/

namespace Drafting.Bounded

open Scalar

variable {α : Type} [Scalar α] {n k : Nat}

/-- What there is to say about an outcome. -/
inductive Note (α : Type) where
  /-- Nothing was free to move, or nothing had to. -/
  | settled
  /-- The optimiser gave no point, for a reason. -/
  | refused (reason : String)
  /-- The optimiser gave a point that is not finite. -/
  | undefinedPoint
  /-- The residuals are small. -/
  | fitted (error : α)
  /-- The residuals are not small, and the optimiser stopped with a code. -/
  | unfitted (code : Nat) (error : α)

/-- The message of a note. -/
def Note.message : Note Float → String
  | settled => "Keine freien Variablen oder bereits erfüllt"
  | refused reason => "Solver-Fehler: " ++ reason
  | undefinedPoint => "Solver lieferte ungültige Werte (NaN/Inf)"
  | fitted error => "Konvergiert (RMS: " ++ Decimal.scientific 2 error ++ ")"
  | unfitted code error =>
    "Solver nicht konvergiert (Status: " ++ toString code ++ ", RMS: " ++
      Decimal.scientific 2 error ++ ")"

/-- The state with the free variables replaced. -/
def scatter {N : Nat} (x : Vector α N) (free : List (Fin N)) (z : Vector α free.length) :
    Vector α N :=
  (List.finRange free.length).foldl
    (fun y i => y.set (free.get i).val (z.get i) (free.get i).isLt) x

/-- The free variables of a state. -/
def gather {N : Nat} (x : Vector α N) (free : List (Fin N)) : Vector α free.length :=
  Vector.ofFn fun i => x.get (free.get i)

/-- The problem for the optimiser: the residuals in fixed modes as functions of the free
variables. -/
def problem (s : System α n k) (modes : List (Option Mode)) :
    Fit.Problem α s.free.length where
  residuals z := s.residuals (scatter s.initial s.free z) modes
  start := gather s.initial s.free
  lower := Vector.ofFn fun i =>
    if (s.free.get i).val < 2 * n then none else some s.options.minRadius
  tolerance := s.options.tolerance * decimal 1 4
  maxEvaluations := s.options.maxIterations

/-- The outcome at a state, in fixed modes. -/
def outcome (s : System α n k) (modes : List (Option Mode)) (x : State α n k) (status : Status)
    (iterations : Nat) : Outcome α n k :=
  let r := s.residuals x modes
  let (vertices, rings) := s.solution x
  { vertices, rings
    success := status == .converged
    status
    iterations
    error := rms r
    residualCount := r.length }

/-- The outcome at the point that the optimiser gave. -/
def accept (s : System α n k) (modes : List (Option Mode)) (a : Fit.Answer α s.free.length) :
    Outcome α n k × Note α :=
  if !a.point.toList.all isFinite then
    (outcome s modes s.initial .diverged a.evaluations, .undefinedPoint)
  else
    let x := State.clampRadii s.options.minRadius (scatter s.initial s.free a.point)
    let error := rms (s.residuals x modes)
    if lt error s.options.tolerance then
      (outcome s modes x .converged a.evaluations, .fitted error)
    else (outcome s modes x .maxIterations a.evaluations, .unfitted a.code error)

/-- The outcome of a solve with an optimiser, and what there is to say about it. -/
def solve (optimiser : Fit.Optimiser α) (s : System α n k) : Outcome α n k × Note α :=
  let x := s.initial
  let modes := s.modes x
  let r := s.residuals x modes
  let small := lt (rms r) s.options.tolerance
  if s.free.isEmpty || r.isEmpty || small then
    (outcome s modes x (if small then .converged else .maxIterations) 0, .settled)
  else
    match optimiser _ (problem s modes) with
    | .ok answer => accept s modes answer
    | .error reason => (outcome s modes x .diverged 0, .refused reason)

end Drafting.Bounded
