import Drafting.Fit.Evaluation

/-!
A dogleg method for bounded least squares. The region of trust is a box, so that it meets the bounds
in a box; the step follows the steepest descent and then turns towards the undamped step, as far as
that box allows. A variable on its bound that the gradient would push beyond it stays there.
-/

namespace Drafting.Fit.Dogleg

open Linear

/-- A state of the method. -/
structure Iterate where
  x : Vec
  f : Vec
  columns : Array Vec
  gradient : Vec
  cost : Float
  region : Float
  /-- Which variables are on their bounds. -/
  onBound : Array Bool
  evaluations : Nat

/-- The linear model around a state in the variables that may move. -/
structure Model where
  rows : Nat
  columns : Array Vec
  gradient : Vec
  /-- The step that solves the model. -/
  newton : Vec

/-- The change of the cost that the model predicts for a step. -/
def Model.value (m : Model) (s : Vec) : Float :=
  let js := apply m.rows m.columns s
  0.5 * dot js js + dot s m.gradient

/-- A step, with the bounds that it meets, and whether it meets the edge of the region. -/
structure Step where
  step : Vec
  walls : Array Bool
  atEdge : Bool

/-- The step from a point in a region. -/
def dogleg (m : Model) (lower x : Vec) (region : Float) : Step :=
  let wall := minus lower x
  let low := wall.map fun w => if w < -region then -region else w
  let high := x.map fun v => min2 region (1.0 / 0.0 - v)
  let inside (s : Vec) : Bool :=
    ((low.zip high).zip s).all fun ((a, b), v) => decide (a ≤ v) && decide (v ≤ b)
  if inside m.newton then ⟨m.newton, x.map fun _ => false, false⟩
  else
    let down := m.gradient.map (-·)
    let (reach, _) := toBound low high (x.map fun _ => 0.0) down
    let v := apply m.rows m.columns down
    let (t, _) := leastOn (0.5 * dot v v) (dot m.gradient down) 0.0 0.0 reach
    let descent := scaled (-t) m.gradient
    let way := minus m.newton descent
    let (stride, hits) := toBound low high descent way
    let falls := (hits.zip way).map fun (hit, d) => hit && decide (d < 0.0)
    let climbs := (hits.zip way).map fun (hit, d) => hit && decide (0.0 < d)
    { step := add descent (scaled stride way)
      walls := (falls.zip (low.zip wall)).map fun (fall, a, w) => fall && a == w
      atEdge :=
        (falls.zip low).any (fun (fall, a) => fall && a == -region) ||
          (climbs.zip high).any fun (climb, b) => climb && b == region }

/-- What came of trying steps from a state. -/
structure Trial where
  point : Option (Vec × Vec × Float × Array Bool)
  region : Float
  evaluations : Nat
  code : Option Nat

/-- The point raised to its bounds. -/
def raised (lower x : Vec) : Vec := lower.zipWith (fun b v => if v < b then b else v) x

/-- Steps from a state, in ever smaller regions, until one reduces the cost. -/
def attempt (q : Setting) (it : Iterate) (m : Model) : Nat → Float → Nat → Trial
  | 0, region, evaluations => ⟨none, region, evaluations, none⟩
  | fuel + 1, region, evaluations =>
    if q.maxEvaluations ≤ evaluations then ⟨none, region, evaluations, none⟩
    else
      let chosen := dogleg m q.lower it.x region
      let x := raised q.lower (add it.x chosen.step)
      let f := q.residuals x
      let length := peak chosen.step
      if !f.all Float.isFinite then attempt q it m fuel (0.25 * length) (evaluations + 1)
      else
        let cost := costOf f
        let actual := it.cost - cost
        let (region, ratio) :=
          nextRegion region actual (-(m.value chosen.step)) length chosen.atEdge
        let code := stopCode? q.tolerance actual it.cost (norm chosen.step) (norm it.x) ratio
        if 0.0 < actual then ⟨some (x, f, cost, chosen.walls), region, evaluations + 1, code⟩
        else if code.isSome then ⟨none, region, evaluations + 1, code⟩
        else attempt q it m fuel region (evaluations + 1)

/-- The variables that stay on their bounds: the gradient would push them beyond. -/
def held (it : Iterate) : Array Bool :=
  (it.onBound.zip it.gradient).map fun (on, g) => on && decide (0.0 < g)

/-- The model around a state, without the variables that stay on their bounds. It has no meaning
where a number of it is not finite. -/
def modelAt (it : Iterate) (held : Array Bool) : Except Refusal Model := do
  let columns := (it.columns.zip held).map fun (c, h) => if h then c.map fun _ => 0.0 else c
  unless columns.all (·.all Float.isFinite) do throw .noConvergence
  return {
    rows := it.f.size
    columns
    gradient := (it.gradient.zip held).map fun (g, h) => if h then 0.0 else g
    newton := leastNorm columns (it.f.map (-·)) }

/-- The state at a point that was accepted: variables that met a bound are put on it, and those that
stay on theirs remain there. -/
def moveTo (q : Setting) (held : Array Bool) (region : Float) (evaluations : Nat)
    (x f : Vec) (cost : Float) (walls : Array Bool) : Iterate :=
  let onBound := (held.zip walls).map fun (h, w) => h || w
  let x := (onBound.zip (q.lower.zip x)).map fun (on, b, v) => if on then b else v
  let columns := q.differences x f
  { x, f, columns, cost, region, onBound, evaluations
    gradient := gradientOf columns f }

/-- The method from a state on, for at most `fuel` accepted or exhausted rounds. -/
def rounds (q : Setting) : Nat → Iterate → Option Nat → Except Refusal (Iterate × Nat)
  | 0, it, code => .ok (it, code.getD 0)
  | fuel + 1, it, code => do
    let held := held it
    let slope := peak ((it.gradient.zip held).map fun (g, h) => if h then 0.0 else g)
    match if slope < q.tolerance then some 1 else code with
    | some c => return (it, c)
    | none =>
      if q.maxEvaluations ≤ it.evaluations then return (it, 0)
      let m ← modelAt it held
      let trial := attempt q it m q.maxEvaluations it.region it.evaluations
      let next := match trial.point with
        | some (x, f, cost, walls) =>
          moveTo q held trial.region trial.evaluations x f cost walls
        | none => { it with region := trial.region, evaluations := trial.evaluations }
      rounds q fuel next trial.code

/-- The first state. -/
def begin (q : Setting) (x f : Vec) : Iterate :=
  let columns := q.differences x f
  let region := peak x
  { x, f, columns
    gradient := gradientOf columns f
    cost := costOf f
    region := if region == 0.0 then 1.0 else region
    onBound := (x.zip q.lower).map fun (v, b) => v == b
    evaluations := 1 }

/-- The method from a start within the bounds, with the residuals there. -/
def minimise (q : Setting) (x f : Vec) : Except Refusal Stop := do
  let (it, code) ← rounds q (q.maxEvaluations + 1) (begin q x f) none
  return ⟨it.x, it.evaluations, code⟩

end Drafting.Fit.Dogleg
