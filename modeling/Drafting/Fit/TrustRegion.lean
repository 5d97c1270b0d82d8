import Drafting.Fit.Evaluation

/-!
A trust region method for bounded least squares. The variables are scaled by their distance from
the bound that the gradient points to, so that steps bend away from bounds; a step that would
still cross a bound is reflected there, or shortened, whichever the quadratic model prefers.
-/

namespace Drafting.Fit.TrustRegion

open Linear

/-- Whether a bound is there. -/
def bounded (b : Float) : Bool := b.isFinite

/-- The point moved off the bounds it lies on or close to. -/
def strictlyInside (lower x : Vec) : Vec :=
  lower.zipWith (fun b v =>
    let slack := 1e-10 * max2 1.0 b.abs
    if bounded b && decide (v - b ≤ slack) then b + slack else v) x

/-- The next number above a finite number. -/
def nextAbove (b : Float) : Float :=
  if b == 0.0 then Float.ofBits 1
  else if 0.0 < b then Float.ofBits (b.toBits + 1)
  else Float.ofBits (b.toBits - 1)

/-- The point moved off the bounds it lies on or beyond, by the least amount. -/
def barelyInside (lower x : Vec) : Vec :=
  lower.zipWith (fun b v => if bounded b && decide (v ≤ b) then nextAbove b else v) x

/-- A state of the method. -/
structure Iterate where
  x : Vec
  f : Vec
  columns : Array Vec
  gradient : Vec
  cost : Float
  region : Float
  alpha : Float
  evaluations : Nat

/-- For every variable the distance from the bound that the gradient points to, and one where
there is none; and whether there is one. -/
def scaling (lower x gradient : Vec) : Array (Float × Bool) :=
  (lower.zip (x.zip gradient)).map fun (b, v, g) =>
    if 0.0 < g && bounded b then (v - b, true) else (1.0, false)

/-- The quadratic model of the cost around a state, in scaled variables. -/
structure Model where
  rows : Nat
  columns : Array Vec
  gradient : Vec
  diagonal : Vec
  scale : Vec
  parts : Array Singular
  /-- The residuals in the basis of the left singular vectors. -/
  components : Vec

/-- The change of the cost that the model predicts for a scaled step. -/
def Model.value (m : Model) (s : Vec) : Float :=
  let js := apply m.rows m.columns s
  0.5 * (dot js js + dot (times s m.diagonal) s) + dot s m.gradient

/-- The coefficients of the model along a direction, from a base step. -/
def Model.along (m : Model) (s base : Vec) : Float × Float × Float :=
  let v := apply m.rows m.columns s
  let u := apply m.rows m.columns base
  let a := 0.5 * (dot v v + dot (times s m.diagonal) s)
  let b := dot m.gradient s + dot u v + dot (times base m.diagonal) s
  let c := 0.5 * dot u u + dot m.gradient base + 0.5 * dot (times base m.diagonal) base
  (a, b, c)

/-- How far one can go from `x` along `s` before leaving the region. -/
def toRegion (x s : Vec) (region : Float) : Except Refusal Float := do
  let a := dot s s
  if a == 0.0 then throw .noDirection
  let b := dot x s
  let c := dot x x - region * region
  if 0.0 < c then throw .outsideRegion
  let d := (b * b - a * c).sqrt
  let q := -(b + (if b < 0.0 || (b == 0.0 && (1.0 / b) < 0.0) then -d else d))
  let t := q / a
  let u := c / q
  return (if t < u then u else t)

/-- The least root of the secular equation that keeps the step in the region, by at most `fuel`
corrections of `alpha`. -/
def correct (parts : Array (Float × Float)) (region : Float) :
    Nat → Float → Float → Float → Float
  | 0, alpha, _, _ => alpha
  | fuel + 1, alpha, low, high =>
    let alpha :=
      if alpha < low || high < alpha then max2 (0.001 * high) (low * high).sqrt else alpha
    let length := norm (parts.map fun (s, q) => q / (s * s + alpha))
    let phi := length - region
    let slope := -(parts.foldl (fun t (s, q) =>
      let e := s * s + alpha
      t + q * q / (e * e * e)) 0.0) / length
    let high := if phi < 0.0 then alpha else high
    let ratio := phi / slope
    let low := max2 low (alpha - ratio)
    let next := alpha - (phi + region) * ratio / region
    if phi.abs < 0.01 * region then next else correct parts region fuel next low high

/-- The step that minimises the model in the region, and the parameter that found it. -/
def regionStep (residualCount : Nat) (m : Model) (region alpha : Float) : Vec × Float :=
  let n := m.columns.size
  let zero : Vec := Array.replicate n 0.0
  let first := (m.parts.getD 0 default).value
  let last := (m.parts.getD (n - 1) default).value
  let fullRank := n ≤ residualCount && machineEpsilon * residualCount.toFloat * first < last
  let along (weight : Singular → Float → Float) : Vec :=
    (m.parts.zip m.components).foldl (fun p (part, u) =>
      if part.value == 0.0 then p else combine 1.0 p (-(weight part u)) part.right) zero
  let newton := along fun part u => u / part.value
  if fullRank && decide (norm newton ≤ region) then (newton, 0.0)
  else
    let products := (m.parts.zip m.components).filterMap fun (part, u) =>
      if part.value == 0.0 then none else some (part.value, part.value * u)
    let high := norm (products.map (·.2)) / region
    let low :=
      if fullRank then
        let length := norm (products.map fun (s, q) => q / (s * s))
        let slope := -(products.foldl (fun t (s, q) =>
          t + q * q / (s * s * (s * s) * (s * s))) 0.0) / length
        (region - length) / slope
      else 0.0
    let start :=
      if !fullRank && alpha == 0.0 then max2 (0.001 * high) (low * high).sqrt else alpha
    let alpha := correct products region 10 start low high
    let p := along fun part u => part.value * u / (part.value * part.value + alpha)
    (scaled (region / norm p) p, alpha)

/-- A step in the variables and in scaled variables, with the reduction the model predicts. -/
structure Step where
  step : Vec
  hat : Vec
  predicted : Float

/-- The best of three steps that stay inside the bounds: the region's step cut at the first bound,
that step reflected there, and the steepest descent. -/
def chooseStep (lower x : Vec) (m : Model) (hat : Vec) (region theta : Float) :
    Except Refusal Step := do
  let step := times m.scale hat
  if within lower (add x step) then return ⟨step, hat, -(m.value hat)⟩
  let unbounded := lower.map fun _ => 1.0 / 0.0
  let (stride, hits) := toBound lower unbounded x step
  let reflectedHat := (hat.zip hits).map fun (v, hit) => if hit then -v else v
  let reflected := times m.scale reflectedHat
  let cut := scaled stride step
  let cutHat := scaled stride hat
  let toEdge ← toRegion cutHat reflectedHat region
  let (toWall, _) := toBound lower unbounded (add x cut) reflected
  let far := min2 toWall toEdge
  let (low, high) :=
    if 0.0 < far then
      ((1.0 - theta) * stride / far, if far == toWall then theta * toWall else toEdge)
    else (0.0, -1.0)
  let bent : Option (Vec × Float) :=
    if low ≤ high then
      let (a, b, c) := m.along reflectedHat cutHat
      let (t, value) := leastOn a b c low high
      some (add (scaled t reflectedHat) cutHat, value)
    else none
  let bentValue := (bent.map (·.2)).getD (1.0 / 0.0)
  let cut := scaled theta cut
  let cutHat := scaled theta cutHat
  let cutValue := m.value cutHat
  let downHat := m.gradient.map (-·)
  let down := times m.scale downHat
  let toEdge := region / norm downHat
  let (toWall, _) := toBound lower unbounded x down
  let limit := if toWall < toEdge then theta * toWall else toEdge
  let (a, b, _) := m.along downHat (downHat.map fun _ => 0.0)
  let (t, downValue) := leastOn a b 0.0 0.0 limit
  if cutValue < bentValue && cutValue < downValue then return ⟨cut, cutHat, -cutValue⟩
  match bent with
  | some (s, value) =>
    if value < cutValue && value < downValue then return ⟨times m.scale s, s, -value⟩
    return ⟨scaled t down, scaled t downHat, -downValue⟩
  | none => return ⟨scaled t down, scaled t downHat, -downValue⟩

/-- What came of trying steps from a state. -/
structure Trial where
  point : Option (Vec × Vec × Float)
  region : Float
  alpha : Float
  evaluations : Nat
  code : Option Nat

/-- Steps from a state, in ever smaller regions, until one reduces the cost. -/
def attempt (q : Setting) (it : Iterate) (m : Model) (theta : Float) :
    Nat → Float → Float → Nat → Except Refusal Trial
  | 0, region, alpha, evaluations => .ok ⟨none, region, alpha, evaluations, none⟩
  | fuel + 1, region, alpha, evaluations =>
    if q.maxEvaluations ≤ evaluations then .ok ⟨none, region, alpha, evaluations, none⟩
    else do
      let (hat, alpha) := regionStep it.f.size m region alpha
      let chosen ← chooseStep q.lower it.x m hat region theta
      let x := barelyInside q.lower (add it.x chosen.step)
      let f := q.residuals x
      let length := norm chosen.hat
      if !f.all Float.isFinite then
        attempt q it m theta fuel (0.25 * length) alpha (evaluations + 1)
      else
        let cost := costOf f
        let actual := it.cost - cost
        let (region', ratio) := nextRegion region actual chosen.predicted length (0.95 * region < length)
        let code := stopCode? q.tolerance actual it.cost (norm chosen.step) (norm it.x) ratio
        let point := if 0.0 < actual then some (x, f, cost) else none
        match code with
        | some c => .ok ⟨point, region, alpha, evaluations + 1, some c⟩
        | none =>
          let alpha := alpha * (region / region')
          if actual ≤ 0.0 then attempt q it m theta fuel region' alpha (evaluations + 1)
          else .ok ⟨point, region', alpha, evaluations + 1, none⟩

/-- The model around a state. It has no meaning where a number of it is not finite. -/
def modelAt (it : Iterate) (scales : Array (Float × Bool)) : Except Refusal Model := do
  let scale := scales.map fun (v, _) => v.sqrt
  let diagonal := (it.gradient.zip scales).map fun (g, _, near) => if near then g else 0.0
  let columns := (it.columns.zip scale).map fun (c, d) => scaled d c
  let n := columns.size
  let augmented := columns.mapIdx fun i c =>
    c ++ ((List.range n).map fun j =>
      if i == j then (diagonal.getD i 0.0).sqrt else 0.0).toArray
  unless augmented.all (·.all Float.isFinite) do throw .undefinedMatrix
  let parts := singular augmented
  let f := it.f ++ Array.replicate n 0.0
  return {
    rows := it.f.size
    columns
    gradient := times scale it.gradient
    diagonal
    scale
    parts
    components := parts.map fun p => dot p.left f }

/-- The method from a state on, for at most `fuel` accepted or exhausted rounds. -/
def rounds (q : Setting) : Nat → Iterate → Option Nat → Except Refusal (Iterate × Nat)
  | 0, it, code => .ok (it, code.getD 0)
  | fuel + 1, it, code => do
    let scales := scaling q.lower it.x it.gradient
    let slope := peak ((it.gradient.zip scales).map fun (g, v, _) => g * v)
    let code := if slope < q.tolerance then some 1 else code
    match code with
    | some c => return (it, c)
    | none =>
      if q.maxEvaluations ≤ it.evaluations then return (it, 0)
      let m ← modelAt it scales
      let theta := max2 0.995 (1.0 - slope)
      let trial ← attempt q it m theta q.maxEvaluations it.region it.alpha it.evaluations
      let next : Iterate := match trial.point with
        | some (x, f, cost) =>
          let columns := q.differences x f
          { x, f, columns
            gradient := gradientOf columns f
            cost
            region := trial.region
            alpha := trial.alpha
            evaluations := trial.evaluations }
        | none =>
          { it with region := trial.region, alpha := trial.alpha, evaluations := trial.evaluations }
      rounds q fuel next trial.code

/-- The first state, at a point that is strictly inside the bounds. -/
def begin (q : Setting) (x f : Vec) : Iterate :=
  let columns := q.differences x f
  let gradient := gradientOf columns f
  let scales := scaling q.lower x gradient
  let region := norm ((x.zip scales).map fun (v, s, _) => v / s.sqrt)
  { x, f, columns, gradient
    cost := costOf f
    region := if region == 0.0 then 1.0 else region
    alpha := 0.0
    evaluations := 1 }

/-- The method from a start strictly inside the bounds, with the residuals there. -/
def minimise (q : Setting) (x f : Vec) : Except Refusal Stop := do
  let (it, code) ← rounds q (q.maxEvaluations + 1) (begin q x f) none
  return ⟨it.x, it.evaluations, code⟩

end Drafting.Fit.TrustRegion
