import Drafting.Fit.Basic
import Drafting.Linear.Singular

/-!
Which least squares problems are taken on. The reasons for a refusal are checked in a fixed order.
-/

namespace Drafting.Fit

/-- A reason to refuse a problem. -/
inductive Refusal where
  | unknownMethod
  | noEvaluations
  | boundsUnsupported
  | emptyBounds
  | startOutside
  | toleranceTooSmall
  | tolerancesTooSmall
  | startUndefined
  | tooFewResiduals
  | undefinedMatrix
  | outsideRegion
  | noDirection
  | noConvergence
  deriving DecidableEq, Repr

/-- The wording of a reason. -/
def Refusal.message : Refusal → String
  | unknownMethod => "`method` must be 'trf', 'dogbox' or 'lm'."
  | noEvaluations => "`max_nfev` must be None or positive integer."
  | boundsUnsupported => "Method 'lm' doesn't support bounds."
  | emptyBounds => "Each lower bound must be strictly less than each upper bound."
  | startOutside => "Initial guess is outside of provided bounds"
  | toleranceTooSmall =>
    "At least one of the tolerances must be higher than machine epsilon (2.22e-16)."
  | tolerancesTooSmall =>
    "All tolerances must be higher than machine epsilon (2.22e-16) for method 'lm'."
  | startUndefined => "Residuals are not finite in the initial point."
  | tooFewResiduals =>
    "Method 'lm' doesn't work when the number of residuals is less than the number of variables."
  | undefinedMatrix => "array must not contain infs or NaNs"
  | outsideRegion => "`x` is not within the trust region."
  | noDirection => "`s` is zero."
  | noConvergence => "SVD did not converge in Linear Least Squares"

/-- The methods for least squares problems. -/
inductive Method where
  /-- Steps in a round region, bent away from the bounds. -/
  | trustRegion
  /-- Steps in a box, which the bounds cut off. -/
  | dogleg
  /-- Damped steps, without bounds. -/
  | damped
  deriving DecidableEq, Repr

namespace Method

/-- Every method. -/
def all : List Method := [trustRegion, dogleg, damped]

/-- The name by which a caller asks for a method. -/
def name : Method → String
  | trustRegion => "trf"
  | dogleg => "dogbox"
  | damped => "lm"

/-- The method with a name. -/
def ofName? (s : String) : Option Method := all.find? (·.name == s)

theorem ofName?_name (m : Method) : ofName? m.name = some m := by
  cases m <;> decide

end Method

/-- The bounds as numbers, with an infinite one where there is none. -/
def bounds {d : Nat} (p : Problem Float d) : Array Float :=
  (p.lower.map fun b => b.getD (-1.0 / 0.0)).toArray

/-- Whether a point is within its bounds. An undefined coordinate or bound is not. -/
def within (lower x : Array Float) : Bool :=
  (lower.zipWith (fun b v => decide (b ≤ v) && decide (v ≤ 1.0 / 0.0)) x).all id

/-- The checks that need no evaluation. -/
def checkProblem {d : Nat} (method : Method) (p : Problem Float d) : Except Refusal Unit := do
  let lower := bounds p
  let unbounded := lower.all (· == -1.0 / 0.0)
  if p.maxEvaluations ≤ 0 then throw .noEvaluations
  if method = .damped && !unbounded then throw .boundsUnsupported
  if lower.any fun b => decide (1.0 / 0.0 ≤ b) then throw .emptyBounds
  unless within lower p.start.toArray do throw .startOutside
  if p.tolerance < Linear.machineEpsilon then
    throw (if method = .damped then .tolerancesTooSmall else .toleranceTooSmall)

/-- The checks at the start, given the residuals there. -/
def checkStart {d : Nat} (method : Method) (_p : Problem Float d) (r : Array Float) :
    Except Refusal Unit := do
  unless r.all Float.isFinite do throw .startUndefined
  if method = .damped && r.size < d then throw .tooFewResiduals

end Drafting.Fit
