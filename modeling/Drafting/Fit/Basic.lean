import Drafting.Scalar

/-!
Bounded least squares problems: to make the squares of some residuals small, from a start and with
lower bounds on some of the variables. An optimiser is any function that answers such a problem
with a point or with the reason why it gives none.
-/

namespace Drafting.Fit

/-- A least squares problem in `d` variables. -/
structure Problem (α : Type) (d : Nat) where
  residuals : Vector α d → List α
  start : Vector α d
  /-- The lower bounds, where there are any. -/
  lower : Vector (Option α) d
  /-- Relative tolerance for the gradient, the step and the sum of squares. -/
  tolerance : α
  /-- The largest number of evaluations, those for difference quotients apart. -/
  maxEvaluations : Int

/-- The answer of an optimiser: a point, the number of evaluations, and a code for why it
stopped. -/
structure Answer (α : Type) (d : Nat) where
  point : Vector α d
  evaluations : Nat
  code : Nat

/-- A way to answer least squares problems, or to refuse them with a reason. -/
abbrev Optimiser (α : Type) : Type :=
  (d : Nat) → Problem α d → Except String (Answer α d)

end Drafting.Fit
