import Drafting.Linear.Singular

/-!
Orthogonal factors of matrices: `A P = Q R` with orthogonal columns in `Q`, an upper triangular `R`
and an exchange `P` of columns, found by one reflection for each column. A matrix is given by its
columns. The right-hand side of a system is reflected along with the columns, so that `Q` itself is
not needed, and triangular systems are solved by substitution.
-/

namespace Drafting.Linear

/-- The length of a vector. Very small and very large ones are scaled first. -/
def length (v : Array Float) : Float :=
  let largest := largestEntry #[v]
  if 1e-100 < largest && largest < 1e100 then (dot v v).sqrt
  else if 0.0 < largest && largest.isFinite then
    let w := v.map (· / largest)
    largest * (dot w w).sqrt
  else (dot v v).sqrt

/-- A column under reflection: its place in the matrix, what it has in the rows that are done and
in those that are not, and the length of the latter, as carried along and as last computed. -/
structure Reflected where
  place : Nat
  above : Array Float
  below : Array Float
  carried : Float
  computed : Float

namespace Reflected

/-- The column at a place, before any reflection. -/
def start (place : Nat) (column : Array Float) : Reflected :=
  let l := length column
  ⟨place, #[], column, l, l⟩

/-- The vector of the reflection that leaves of a column only its first entry, and that entry. There
is none for a column of zeros. -/
def reflector? (column : Array Float) : Option (Array Float × Float) :=
  let l := length column
  if l == 0.0 then none
  else
    let signed := if column.getD 0 0.0 < 0.0 then -l else l
    let v := column.map (· / signed)
    some (v.setIfInBounds 0 (v.getD 0 0.0 + 1.0), -signed)

/-- A vector reflected. -/
def reflect (v x : Array Float) : Array Float :=
  combine 1.0 x (-(dot v x / v.getD 0 1.0)) v

/-- The column with its first open row done. -/
def settle (c : Reflected) : Reflected :=
  { c with above := c.above.push (c.below.getD 0 0.0), below := c.below.extract 1 c.below.size }

/-- The column reflected, with its first open row done. Its length is carried along, and computed
anew where too little is left of it. -/
def advance (v : Array Float) (c : Reflected) : Reflected :=
  let next := settle { c with below := reflect v c.below }
  if c.carried == 0.0 then next
  else
    let t := next.above.getD (next.above.size - 1) 0.0 / c.carried
    let rest := 1.0 - t * t
    let carried := c.carried * (if rest < 0.0 then 0.0 else rest).sqrt
    let share := carried / c.computed
    if machineEpsilon < 0.05 * (share * share) then { next with carried }
    else
      let l := length next.below
      { next with carried := l, computed := l }

end Reflected

/-- Columns with a longest one in front, which has changed places with the first. -/
def longestFirst : List Reflected → List Reflected
  | [] => []
  | c :: cs =>
    let longest := cs.foldl (fun m d => if m.carried < d.carried then d else m) c
    if longest.place == c.place then c :: cs
    else longest :: cs.map fun d => if d.place == longest.place then c else d

/-- The triangular factor by columns, each down to the diagonal, with the places that these columns
had in the matrix, their lengths there by place, and the right-hand side after all reflections. -/
structure Factored where
  upper : Array (Array Float)
  order : Array Nat
  lengths : Array Float
  right : Array Float

/-- The columns that are done after reflecting away at most `fuel` columns, and the right-hand side,
of which the rows above are done. -/
def reflectAll (exchange : Bool) :
    Nat → List Reflected → Array Float → Array Float → List Reflected × Array Float
  | 0, _, above, below => ([], above ++ below)
  | fuel + 1, columns, above, below =>
    match if exchange then longestFirst columns else columns with
    | [] => ([], above ++ below)
    | c :: cs =>
      let (done, rest, below) := match Reflected.reflector? c.below with
        | some (v, first) =>
          ({ c with above := c.above.push first }, cs.map (Reflected.advance v),
            Reflected.reflect v below)
        | none => ({ c with above := c.above.push 0.0 }, cs.map Reflected.settle, below)
      let (others, right) :=
        reflectAll exchange fuel rest (above.push (below.getD 0 0.0))
          (below.extract 1 below.size)
      (done :: others, right)

/-- The orthogonal factors of a matrix, together with a right-hand side. With `exchange` the longest
column that is left comes first. -/
def factor (exchange : Bool) (columns : Array (Array Float)) (b : Array Float) : Factored :=
  let start := (columns.mapIdx Reflected.start).toList
  let (done, right) := reflectAll exchange columns.size start #[] b
  { upper := (done.map (·.above)).toArray
    order := (done.map (·.place)).toArray
    lengths := columns.map length
    right }

/-- The solution of `R z = b` for an upper triangular `R`, given by columns, from the last unknown to
the first. -/
def substituteBack (upper : Array (Array Float)) (b : Array Float) : Array Float :=
  let n := upper.size
  (upper.toList.zipIdx.foldr (fun (column, j) (z : Array Float) =>
    let t := z.getD j 0.0 / column.getD j 0.0
    z.mapIdx fun i a =>
      if i < j then a - column.getD i 0.0 * t else if i == j then t else a)
    (b.extract 0 n))

/-- The solution of `Rᵀ z = b` for an upper triangular `R`, given by columns. -/
def substituteForward (upper : Array (Array Float)) (b : Array Float) : Array Float :=
  upper.foldl (fun (z : Array Float) (column : Array Float) =>
    let j := z.size
    z.push ((b.getD j 0.0 - dot z column) / column.getD j 0.0)) #[]

namespace Factored

/-- A vector in the order of the triangular factor. -/
def arrange (f : Factored) (x : Array Float) : Array Float := f.order.map fun i => x.getD i 0.0

/-- A vector in the order of the matrix. -/
def restore (f : Factored) (z : Array Float) : Array Float :=
  (f.order.zip z).foldl (fun x (i, a) => x.setIfInBounds i a) (z.map fun _ => 0.0)

/-- The number of columns before the first zero on the diagonal. -/
def rank (f : Factored) : Nat :=
  (f.upper.toList.zipIdx.takeWhile fun (column, j) => column.getD j 0.0 != 0.0).length

/-- The vector that comes nearest to solving the system with zeros from the rank on. -/
def solve (f : Factored) : Array Float :=
  let r := f.rank
  let z := substituteBack (f.upper.extract 0 r) f.right
  f.restore (z ++ Array.replicate (f.order.size - r) 0.0)

end Factored

end Drafting.Linear
