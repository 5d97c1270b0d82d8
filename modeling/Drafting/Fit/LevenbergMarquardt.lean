import Drafting.Fit.Evaluation
import Drafting.Linear.Orthogonal

/-!
The damped least squares method without bounds. Steps are kept in a region whose axes are scaled by
the lengths of the Jacobian's columns, by damping the linear model as much as that takes; the region
follows how well the model predicts the reduction of the residuals.
-/

namespace Drafting.Fit.LevenbergMarquardt

open Linear

/-- The least positive number with full precision. -/
def leastNormal : Float := 2.2250738585072014e-308

/-- The solution of the linear model with every variable damped by its scale times the root of the
parameter, and the triangular factor that gave it. -/
def damped (m : Factored) (scale : Vec) (parameter : Float) : Vec × Array Vec :=
  let n := m.order.size
  let root := parameter.sqrt
  let zero : Vec := Array.replicate n 0.0
  let columns := (m.upper.zip (m.arrange scale)).mapIdx fun j (column, s) =>
    column ++ Array.replicate (n - column.size) 0.0 ++ zero.setIfInBounds j (root * s)
  let f := factor false columns (m.right.extract 0 n ++ zero)
  (m.restore (substituteBack f.upper f.right), f.upper)

/-- How fast the scaled size of a damped step falls with the parameter: the square of this, times the
size, is the rate. -/
def response (m : Factored) (upper : Array Vec) (scale x : Vec) (size : Float) : Float :=
  let w := (m.arrange scale).zipWith (fun s a => s * (s * a / size)) (m.arrange x)
  length (substituteForward upper w)

/-- The step whose scaled size is within a tenth of the region, by at most `fuel` corrections of the
parameter between two bounds; `excess` is by how much the last step was too long. -/
def search (m : Factored) (scale : Vec) (region : Float) :
    Nat → Float → Float → Float → Float → Vec × Float
  | 0, _, _, parameter, _ => ((damped m scale parameter).1, parameter)
  | fuel + 1, low, high, parameter, excess =>
    let parameter := if parameter == 0.0 then max2 leastNormal (0.001 * high) else parameter
    let (x, upper) := damped m scale parameter
    let size := length (times scale x)
    let next := size - region
    let near := decide (next.abs ≤ 0.1 * region)
    let stalled := low == 0.0 && decide (next ≤ excess) && decide (excess < 0.0)
    if near || stalled || fuel == 0 then (x, parameter)
    else
      let t := response m upper scale x size
      let correction := next / region / t / t
      let low := if 0.0 < next then max2 low parameter else low
      let high := if next < 0.0 then min2 high parameter else high
      search m scale region fuel low high (max2 low (parameter + correction)) next

/-- The step that the linear model asks for in the region, to be subtracted, and the parameter that
gave it: none is needed if the undamped step is short enough. -/
def regionStep (m : Factored) (scale : Vec) (region parameter : Float) : Vec × Float :=
  let n := m.order.size
  let x := m.solve
  let size := length (times scale x)
  let excess := size - region
  if excess ≤ 0.1 * region then (x, 0.0)
  else
    let low :=
      if m.rank < n then 0.0
      else
        let t := response m m.upper scale x size
        excess / region / t / t
    let slopes := m.upper.zipWith (fun column s => dot column m.right / s) (m.arrange scale)
    let slope := length slopes
    let high := slope / region
    let high := if high == 0.0 then leastNormal / min2 region 0.1 else high
    let parameter := min2 (max2 parameter low) high
    let parameter := if parameter == 0.0 then slope / size else parameter
    search m scale region 10 low high parameter excess

/-- A state of the method. -/
structure Iterate where
  x : Vec
  f : Vec
  /-- The length of the residuals. -/
  error : Float
  scale : Vec
  /-- The length of the point in scaled variables. -/
  size : Float
  region : Float
  parameter : Float
  evaluations : Nat
  /-- Whether no step has been taken yet. -/
  fresh : Bool

/-- The cosine of the angle between the residuals and the column of the Jacobian they are most
aligned with. -/
def alignment (m : Factored) (error : Float) : Float :=
  if error == 0.0 then 0.0
  else
    let relative := m.right.map (· / error)
    (m.upper.zip (m.arrange m.lengths)).foldl (fun most (column, l) =>
      if l == 0.0 then most else max2 most (dot column relative / l).abs) 0.0

/-- The region and the parameter after a step of some length that reduced the residuals by `actual`
where `predicted` was expected; `turn` is the slope along the step, and `worse` tells whether the
residuals grew tenfold. -/
def adapt (region parameter length actual turn ratio : Float) (worse : Bool) : Float × Float :=
  if 0.25 < ratio then
    if parameter == 0.0 || !(ratio < 0.75) then (length / 0.5, 0.5 * parameter)
    else (region, parameter)
  else
    let t := if 0.0 ≤ actual then 0.5 else 0.5 * turn / (turn + 0.5 * actual)
    let t := if worse || t < 0.1 then 0.1 else t
    (t * min2 region (length / 0.1), parameter / t)

/-- The code for stopping after a step, if it is time to. -/
def stopCode? (tolerance actual predicted ratio region size : Float) : Option Nat :=
  let flat := decide (actual.abs ≤ tolerance) && decide (predicted ≤ tolerance) &&
    decide (0.5 * ratio ≤ 1.0)
  let short := decide (region ≤ tolerance * size)
  if flat && short then some 4
  else if short then some 3
  else if flat then some 2
  else none

/-- One step from a state: where it leads, whether it was taken, and the code if the method stops
there. -/
def tryStep (q : Setting) (m : Factored) (it : Iterate) : Iterate × Bool × Option Nat :=
  let (back, parameter) := regionStep m it.scale it.region it.parameter
  let step := back.map (-·)
  let x := add it.x step
  let length := Linear.length (times it.scale step)
  let region := if it.fresh then min2 it.region length else it.region
  let f := q.residuals x
  let error := Linear.length f
  let shrink := error / it.error
  let actual := if 0.1 * error < it.error then 1.0 - shrink * shrink else -1.0
  let model := apply m.order.size
    (m.upper.map fun c => c ++ Array.replicate (m.order.size - c.size) 0.0) (m.arrange step)
  let a := Linear.length model / it.error
  let b := parameter.sqrt * length / it.error
  let predicted := a * a + b * b / 0.5
  let turn := -(a * a + b * b)
  let ratio := if predicted == 0.0 then 0.0 else actual / predicted
  let (region, parameter) :=
    adapt region parameter length actual turn ratio (it.error ≤ 0.1 * error)
  let tried := { it with region, parameter, evaluations := it.evaluations + 1 }
  let taken := !(ratio < 0.0001)
  let next :=
    if taken then
      { tried with x, f, error, size := Linear.length (times it.scale x), fresh := false }
    else tried
  let code := stopCode? q.tolerance actual predicted ratio region next.size
  let spent := if q.maxEvaluations ≤ next.evaluations then some 0 else none
  (next, taken, code <|> spent)

/-- Steps from a state with one linear model, until one is taken or the method stops. -/
def attempt (q : Setting) (m : Factored) : Nat → Iterate → Iterate × Option Nat
  | 0, it => (it, some 0)
  | fuel + 1, it =>
    match tryStep q m it with
    | (next, _, some code) => (next, some code)
    | (next, true, none) => (next, none)
    | (next, false, none) => attempt q m fuel next

/-- The method from a state on, for at most `fuel` linear models. -/
def rounds (q : Setting) : Nat → Iterate → Iterate × Nat
  | 0, it => (it, 0)
  | fuel + 1, it =>
    let m := factor true (q.differences it.x it.f) it.f
    if alignment m it.error ≤ q.tolerance then (it, 1)
    else
      let scale := it.scale.zipWith max2 m.lengths
      match attempt q m (q.maxEvaluations + 1) { it with scale } with
      | (next, some code) => (next, code)
      | (next, none) => rounds q fuel next

/-- The first state. -/
def begin (q : Setting) (x f : Vec) : Iterate :=
  let scale := (q.differences x f).map fun c =>
    let l := length c
    if l == 0.0 then 1.0 else l
  let size := length (times scale x)
  { x, f, scale, size
    error := length f
    region := if size == 0.0 then 100.0 else 100.0 * size
    parameter := 0.0
    evaluations := 1
    fresh := true }

/-- The method from a start, with the residuals there. -/
def minimise (q : Setting) (x f : Vec) : Stop :=
  let (it, code) := rounds q (q.maxEvaluations + 1) (begin q x f)
  ⟨it.x, it.evaluations, code⟩

end Drafting.Fit.LevenbergMarquardt
