import Mathlib.Analysis.SpecialFunctions.Complex.Arg
import Mathlib.Analysis.SpecialFunctions.Trigonometric.Inverse
import Drafting.Proofs.ExactArithmetic

/-!
Real numbers as scalars, with their square roots, angles and the ratio of the circle. Of documents
only whole numbers are read.
-/

namespace Drafting

noncomputable instance : Elementary ℝ where
  sqrt := Real.sqrt
  hypot a b := Real.sqrt (a * a + b * b)
  acos := Real.arccos
  cos := Real.cos
  sin := Real.sin
  atan2 y x := Complex.arg ⟨x, y⟩
  pi := Real.pi
  read
    | .int n => .ok n
    | v => .error (.noNumber v)

theorem Elementary.exactRoots_real : Elementary.ExactRoots ℝ :=
  ⟨Real.sqrt_nonneg, fun _ => Real.mul_self_sqrt⟩

end Drafting
