import Drafting.Fit.Admission

/-!
What the least squares methods share: vectors of numbers, difference quotients, quadratic functions
of one variable, steps up to a bound, and the rules by which a region of trust grows or shrinks and
a method stops.
-/

namespace Drafting.Fit

open Linear

/-- A vector of numbers. -/
abbrev Vec := Array Float

/-- The length of a vector. -/
def norm (v : Vec) : Float := (dot v v).sqrt

/-- The largest magnitude of an entry, undefined if an entry is. -/
def peak (v : Vec) : Float :=
  v.foldl (fun m x => if x.isNaN || m < x.abs then x.abs else m) 0.0

/-- The larger of two numbers. -/
def max2 (a b : Float) : Float := if a < b then b else a

/-- The smaller of two numbers. -/
def min2 (a b : Float) : Float := if b < a then b else a

/-- Sum of two vectors. -/
def add (x y : Vec) : Vec := x.zipWith (· + ·) y

/-- Difference of two vectors. -/
def minus (x y : Vec) : Vec := x.zipWith (· - ·) y

/-- Entrywise product of two vectors. -/
def times (x y : Vec) : Vec := x.zipWith (· * ·) y

/-- Multiple of a vector. -/
def scaled (a : Float) (x : Vec) : Vec := x.map (a * ·)

/-- The product of a matrix, given by its columns, with a vector. -/
def apply (rows : Nat) (columns : Array Vec) (x : Vec) : Vec :=
  (columns.zip x).foldl (fun y (c, a) => combine 1.0 y a c) (Array.replicate rows 0.0)

/-- A problem as a method sees it. -/
structure Setting where
  residuals : Vec → Vec
  lower : Vec
  tolerance : Float
  maxEvaluations : Nat

/-- Where a method stopped, after how many evaluations, and a code for the reason. -/
structure Stop where
  x : Vec
  evaluations : Nat
  code : Nat

/-- The difference quotients of the residuals `f` at `x`, by columns. Steps point away from zero,
unless that crosses a bound. -/
def Setting.differences (q : Setting) (x f : Vec) : Array Vec :=
  x.mapIdx fun i v =>
    let h := 1.4901161193847656e-08 * (if 0.0 ≤ v then 1.0 else -1.0) * max2 1.0 v.abs
    let h := if v + h < q.lower.getD i 0.0 then -h else h
    let moved := v + h
    let f' := q.residuals (x.setIfInBounds i moved)
    f'.zipWith (fun a b => (a - b) / (moved - v)) f

/-- The gradient of half the sum of squares. -/
def gradientOf (columns : Array Vec) (f : Vec) : Vec := columns.map (dot · f)

/-- Half the sum of squares. -/
def costOf (f : Vec) : Float := 0.5 * dot f f

/-- Where `a t² + b t + c` is least between two bounds, and its value there. -/
def leastOn (a b c low high : Float) : Float × Float :=
  let y (t : Float) : Float := t * (a * t + b) + c
  let extremum := -0.5 * b / a
  let candidates :=
    if a != 0.0 && low < extremum && extremum < high then [high, extremum] else [high]
  candidates.foldl (fun (best, least) t => if y t < least then (t, y t) else (best, least))
    (low, y low)

/-- How far one can go along a direction before a bound is met, and which bounds are met there. -/
def toBound (lower upper x s : Vec) : Float × Array Bool :=
  let steps := ((lower.zip upper).zip (x.zip s)).map fun ((a, b), v, d) =>
    if d == 0.0 then 1.0 / 0.0
    else
      let down := (a - v) / d
      let up := (b - v) / d
      if down.isNaN || up < down then down else up
  let least := steps.foldl min2 (1.0 / 0.0)
  (least, steps.map (· == least))

/-- The radius of the region after a step, and how well the model predicted it. The region grows
only if the step went to its edge. -/
def nextRegion (region actual predicted length : Float) (atEdge : Bool) : Float × Float :=
  let ratio :=
    if 0.0 < predicted then actual / predicted
    else if predicted == 0.0 && actual == 0.0 then 1.0
    else 0.0
  if ratio < 0.25 then (0.25 * length, ratio)
  else if 0.75 < ratio && atEdge then (2.0 * region, ratio)
  else (region, ratio)

/-- The code for stopping after a step, if it is time to: the reduction or the step is small. -/
def stopCode? (tolerance actual cost length size ratio : Float) : Option Nat :=
  let flat := decide (actual < tolerance * cost) && decide (0.25 < ratio)
  let short := decide (length < tolerance * (tolerance + size))
  if flat && short then some 4
  else if flat then some 2
  else if short then some 3
  else none

end Drafting.Fit
