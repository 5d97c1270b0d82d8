import Drafting.Scalar

/-!
Cholesky factors of symmetric matrices and the solution of positive definite systems with them.
A matrix is given by its rows; only the part on and below the diagonal is read.
-/

namespace Drafting.Linear

open Scalar

variable {α : Type} [Scalar α]

/-- The scalar product of two rows, as far as both reach. -/
@[specialize] def dot (xs ys : Array α) : α :=
  (xs.zipWith (· * ·) ys).foldl (· + ·) zero

/-- The part of a row of the lower factor that lies left of the diagonal, after the rows above. -/
@[specialize] def leftOf (above : Array (Array α)) (row : Array α) : Array α :=
  above.foldl (fun (xs : Array α) (l : Array α) =>
    let j := xs.size
    xs.push ((row.getD j zero - dot xs l) / l.getD j one)) #[]

/-- The row of the lower factor that belongs to a row of the matrix, after the rows above it. There
is none if the pivot is not positive. -/
@[specialize] def factorRow? (above : Array (Array α)) (row : Array α) : Option (Array α) :=
  let left := leftOf above row
  let pivot := row.getD left.size zero - dot left left
  if lt zero pivot then some (left.push (sqrt pivot)) else none

/-- The rows of the lower Cholesky factor of a symmetric matrix, if it is positive definite. -/
@[specialize] def cholesky? (rows : Array (Array α)) : Option (Array (Array α)) :=
  rows.foldlM (fun above row => (factorRow? above row).map above.push) #[]

/-- The solution of `L y = b` for a lower triangular `L`. -/
@[specialize] def forward (lower : Array (Array α)) (b : Array α) : Array α := leftOf lower b

/-- The last `s` unknowns of `Lᵀ x = y` for a lower triangular `L`, the very last first, with the one
before them. -/
@[specialize] def withPrevious (lower : Array (Array α)) (y xs : Array α) (s : Nat) : Array α :=
  let i := lower.size - 1 - s
  let column := (List.range s).map fun t => (lower.getD (lower.size - 1 - t) #[]).getD i zero
  xs.push ((y.getD i zero - dot xs column.toArray) / (lower.getD i #[]).getD i one)

/-- The solution of `Lᵀ x = y` for a lower triangular `L`, from the last unknown to the first. -/
@[specialize] def backward (lower : Array (Array α)) (y : Array α) : Array α :=
  ((List.range lower.size).foldl (withPrevious lower y) #[]).reverse

/-- The solution of a positive definite system. -/
@[specialize] def solvePositive? (rows : Array (Array α)) (b : Array α) : Option (Array α) :=
  (cholesky? rows).map fun lower => backward lower (forward lower b)

end Drafting.Linear
