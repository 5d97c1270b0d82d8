import Drafting.Linear.Cholesky

/-!
Singular value decompositions by one-sided rotations, and solutions of least norm. A matrix is
given by its columns. Pairs of columns are turned until all are orthogonal; their lengths are then
the singular values, and the accumulated rotations the right singular vectors.
-/

namespace Drafting.Linear

/-- One singular value with its left and right singular vectors. -/
structure Singular where
  value : Float
  left : Array Float
  right : Array Float
  deriving Inhabited

/-- A column of the matrix together with the same column of the rotations. -/
abbrev Turned := Array Float × Array Float

/-- `a · x + b · y`, entry by entry. -/
def combine (a : Float) (x : Array Float) (b : Float) (y : Array Float) : Array Float :=
  x.zipWith (fun s t => a * s + b * t) y

/-- The distance of a floating-point number from the next, relative to it. -/
def machineEpsilon : Float := 2.220446049250313e-16

/-- Two columns turned so that they are orthogonal, and whether they had to be turned. -/
def turn (p q : Turned) : Turned × Turned × Bool :=
  let a := dot p.1 p.1
  let b := dot q.1 q.1
  let g := dot p.1 q.1
  if g.abs ≤ 0.1 * machineEpsilon * (a.sqrt * b.sqrt) || g == 0.0 then (p, q, false)
  else
    let z := (b - a) / (2.0 * g)
    let t := (if z < 0.0 then -1.0 else 1.0) / (z.abs + (1.0 + z * z).sqrt)
    let c := 1.0 / (1.0 + t * t).sqrt
    let s := c * t
    ((combine c p.1 (-s) q.1, combine c p.2 (-s) q.2),
      (combine s p.1 c q.1, combine s p.2 c q.2), true)

/-- All pairs of columns turned once, and whether any had to be. -/
def sweep (columns : Array Turned) : Array Turned × Bool :=
  let n := columns.size
  let pairs := (List.range n).flatMap fun p => ((List.range n).drop (p + 1)).map fun q => (p, q)
  pairs.foldl (fun (cs, moved) (p, q) =>
    let (u, v, now) := turn (cs.getD p (#[], #[])) (cs.getD q (#[], #[]))
    ((cs.setIfInBounds p u).setIfInBounds q v, moved || now)) (columns, false)

/-- Sweeps until nothing has to be turned, at most `fuel` of them. -/
def sweeps : Nat → Array Turned → Array Turned
  | 0, columns => columns
  | fuel + 1, columns =>
    let (next, moved) := sweep columns
    if moved then sweeps fuel next else next

/-- The largest magnitude of an entry. -/
def largestEntry (columns : Array (Array Float)) : Float :=
  columns.foldl (fun m c => c.foldl (fun m x => if m < x.abs then x.abs else m) m) 0.0

/-- A singular value put in front of the first one that is not larger. -/
def place (p : Singular) : List Singular → List Singular
  | [] => [p]
  | q :: qs => if q.value ≤ p.value then p :: q :: qs else q :: place p qs

/-- The singular values of a matrix with their vectors, one for every column, largest first. -/
def singular (columns : Array (Array Float)) : Array Singular :=
  let n := columns.size
  let largest := largestEntry columns
  let scale := if 0.0 < largest then largest else 1.0
  let start := columns.mapIdx fun i c =>
    (c.map (· / scale), ((List.range n).map fun j => if i == j then 1.0 else 0.0).toArray)
  let found := (sweeps 60 start).map fun (c, v) =>
    let s := (dot c c).sqrt
    { value := s * scale
      left := if s == 0.0 then c else c.map (· / s)
      right := v : Singular }
  (found.toList.foldr place []).toArray

/-- The vector of least norm among those that come nearest to `A x = b`. Singular values up to
machine precision of the largest count as zero. -/
def leastNorm (columns : Array (Array Float)) (b : Array Float) : Array Float :=
  let parts := singular columns
  let cut := machineEpsilon * (parts.getD 0 default).value
  parts.foldl (fun x p =>
    if cut < p.value then combine 1.0 x (dot p.left b / p.value) p.right else x)
    (columns.map fun _ => 0.0)

/-- The solution of a symmetric system: by Cholesky factors where they exist, and of least norm
otherwise. -/
def solveSymmetric (rows : Array (Array Float)) (b : Array Float) : Array Float :=
  match solvePositive? rows b with
  | some x => x
  | none => leastNorm rows b

end Drafting.Linear
