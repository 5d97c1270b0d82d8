import Drafting.System.State

/-!
The outcome of a solve.
-/

namespace Drafting

/-- How a solve ended. -/
inductive Status where
  | converged
  | maxIterations
  | diverged
  | noConstraints
  deriving DecidableEq, Repr

/-- The word for a status. -/
def Status.word : Status → String
  | converged => "converged"
  | maxIterations => "max_iterations"
  | diverged => "diverged"
  | noConstraints => "no_constraints"

/-- The points and circles after a solve, how it ended, after how many steps, and what is left of
the residuals. -/
structure Outcome (α : Type) (n k : Nat) where
  vertices : Vector (Vertex α) n
  rings : Vector (Ring α) k
  success : Bool
  status : Status
  iterations : Nat
  error : α
  residualCount : Nat

end Drafting
