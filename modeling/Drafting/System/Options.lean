import Drafting.Scalar

/-!
The parameters of one solve.
-/

namespace Drafting

/-- Parameters of a solve. A missing backend name leaves the choice to the settings. -/
structure Options (α : Type) where
  /-- The largest number of steps. -/
  maxIterations : Int
  /-- A solve has converged when the root mean square of the residuals is below this. -/
  tolerance : α
  /-- What is added to the diagonal of the normal equations. -/
  damping : α
  /-- The weight of equations between angles. -/
  angleStiffness : α
  /-- The step of the difference quotients. -/
  differenceStep : α
  /-- The least radius of a circle. -/
  minRadius : α
  /-- The name of the backend that is asked for. -/
  backend : Option String

open Scalar in
/-- The parameters where nothing else is said. -/
def Options.standard {α : Type} [Scalar α] : Options α where
  maxIterations := 50
  tolerance := decimal 1 4
  damping := decimal 1 2
  angleStiffness := decimal 100 0
  differenceStep := decimal 1 4
  minRadius := decimal 1 1
  backend := none

end Drafting
