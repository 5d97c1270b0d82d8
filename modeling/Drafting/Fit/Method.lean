import Drafting.Fit.Dogleg
import Drafting.Fit.LevenbergMarquardt
import Drafting.Fit.TrustRegion

/-!
The least squares methods as optimisers, by name.
-/

namespace Drafting.Fit

/-- The point that a vector of the right length is. -/
def toPoint (d : Nat) (x : Vec) : Vector Float d := Vector.ofFn fun i => x.getD i.val 0.0

namespace Method

/-- Where a method starts. One that stays strictly inside the bounds is moved off them first. -/
def start (method : Method) (lower x : Vec) : Vec :=
  match method with
  | trustRegion => TrustRegion.strictlyInside lower x
  | dogleg | damped => x

/-- Where a method stops, from a start with the residuals there. -/
def minimise (method : Method) (q : Setting) (x f : Vec) : Except Refusal Stop :=
  match method with
  | trustRegion => TrustRegion.minimise q x f
  | dogleg => Dogleg.minimise q x f
  | damped => .ok (LevenbergMarquardt.minimise q x f)

/-- Where a method stops for a problem, unless the problem is refused. -/
def answer {d : Nat} (method : Method) (p : Problem Float d) : Except Refusal Stop := do
  checkProblem method p
  let lower := bounds p
  let residuals (x : Vec) : Vec := (p.residuals (toPoint d x)).toArray
  let x := method.start lower p.start.toArray
  let f := residuals x
  checkStart method p f
  method.minimise ⟨residuals, lower, p.tolerance, p.maxEvaluations.toNat⟩ x f

end Method

/-- The optimiser that the method of some name is. An unknown name is refused. -/
def optimiser (name : String) : Optimiser Float := fun d p =>
  let answer : Except Refusal Stop := match Method.ofName? name with
    | some method => method.answer p
    | none => .error .unknownMethod
  match answer with
  | .ok stop => .ok ⟨toPoint d stop.x, stop.evaluations, stop.code⟩
  | .error why => .error why.message

end Drafting.Fit
