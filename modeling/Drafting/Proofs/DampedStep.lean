import Mathlib.LinearAlgebra.Matrix.DotProduct
import Drafting.Proofs.Factors
import Drafting.Proofs.RealArithmetic

/-!
The damped step over exact numbers. With positive damping the normal equations have one solution,
whatever the Jacobian, the residuals and the mask are. Fixed variables do not move, and what their
columns hold does not matter; on the free variables the step solves the damped normal equations of
their columns, and it goes down: it has a negative product with the gradient unless the gradient is
zero.
-/

namespace Drafting

open Scalar Matrix

variable {K : Type} [Field K] {n : Nat}

namespace NormalEquations

/-! ## Free columns -/

/-- A matrix by its columns. -/
def columnLists {m : Nat} (J : Matrix (Fin m) (Fin n) K) : Vector (List K) n :=
  Vector.ofFn fun j => List.ofFn fun i => J i j

/-- The variables that are not fixed. -/
abbrev FreeIndex (fixed : Vector Bool n) : Type := {j : Fin n // fixed.get j = false}

/-- The columns of the free variables. -/
def freeColumns {m : Nat} (J : Matrix (Fin m) (Fin n) K) (fixed : Vector Bool n) :
    Matrix (Fin m) (FreeIndex fixed) K :=
  J.submatrix id (·.val)

/-- The matrix of the damped normal equations of the free columns. -/
def freeMatrix {m : Nat} (J : Matrix (Fin m) (Fin n) K) (damping : K) (fixed : Vector Bool n) :
    Matrix (FreeIndex fixed) (FreeIndex fixed) K :=
  (freeColumns J fixed)ᵀ * freeColumns J fixed + damping • 1

/-- The part of a step that belongs to the free variables. -/
def freeStep (fixed : Vector Bool n) (dx : Vector K n) : FreeIndex fixed → K := fun j => dx.get j

/-- The gradient of half the sum of squares of the residuals along the free variables. -/
def freeGradient {m : Nat} (J : Matrix (Fin m) (Fin n) K) (r : Fin m → K) (fixed : Vector Bool n) :
    FreeIndex fixed → K :=
  (freeColumns J fixed)ᵀ *ᵥ r

/-- A sum over all variables to which fixed ones give nothing. -/
theorem sum_free {fixed : Vector Bool n} {f : Fin n → K}
    (hf : ∀ j, fixed.get j = true → f j = 0) : ∑ j, f j = ∑ j : FreeIndex fixed, f j := by
  rw [← Finset.sum_filter_of_ne (p := fun j => fixed.get j = false) fun j _ hj => by
    cases hfixed : fixed.get j with
    | true => exact absurd (hf j hfixed) hj
    | false => rfl]
  exact Finset.sum_subtype _ (by simp) f

/-- The quadratic form of the damped normal equations of the free columns. -/
theorem freeMatrix_form {m : Nat} (J : Matrix (Fin m) (Fin n) K) (damping : K)
    (fixed : Vector Bool n) (d : FreeIndex fixed → K) :
    (freeMatrix J damping fixed *ᵥ d) ⬝ᵥ d =
      (freeColumns J fixed *ᵥ d) ⬝ᵥ (freeColumns J fixed *ᵥ d) + damping * (d ⬝ᵥ d) := by
  rw [freeMatrix, add_mulVec, add_dotProduct, smul_mulVec, one_mulVec, smul_dotProduct, smul_eq_mul,
    ← mulVec_mulVec, mulVec_transpose, ← dotProduct_mulVec]

end NormalEquations

variable [LinearOrder K]

/-- A positive definite system has at most one solution. -/
theorem PositiveDefinite.solution_unique {a : Vector (Vector K n) n} (ha : PositiveDefinite a)
    {x y b : Vector K n} (hx : Solves a x b) (hy : Solves a y b) : x = y := by
  by_contra hne
  have hdifference : (fun i => x.get i - y.get i) ≠ 0 := by
    intro hzero
    refine hne (Vector.ext fun i hi => ?_)
    exact sub_eq_zero.mp (congrFun hzero ⟨i, hi⟩)
  have hform : ∑ i, ∑ j, (x.get i - y.get i) * (a.get i).get j * (x.get j - y.get j) = 0 := by
    refine Finset.sum_eq_zero fun i _ => ?_
    have hrow : ∑ j, (a.get i).get j * (x.get j - y.get j) = 0 := by
      simp only [mul_sub, Finset.sum_sub_distrib, hx i, hy i, sub_self]
    simp only [mul_assoc, ← Finset.mul_sum, hrow, mul_zero]
  exact (ha.positive _ hdifference).ne' hform

namespace NormalEquations

/-! ## The step -/

variable [Elementary K]

theorem dot_ofFn {m : Nat} (f g : Fin m → K) :
    dot (List.ofFn f) (List.ofFn g) = ∑ i, f i * g i := by
  rw [dot_eq _ _ (List.length_ofFn).le, Finset.sum_range]
  simp

section Step

variable (columns : Vector (List K) n) (r : List K) (damping : K) (fixed : Vector Bool n)

theorem rightSide_get (i : Fin n) : (rightSide columns r fixed).get i =
    if fixed.get i then 0 else -(dot (columns.get i) r) := by
  rw [rightSide, get_ofFn, zero_eq]

/-- The equation of a fixed variable says that it does not move. -/
theorem solves_fixed {columns : Vector (List K) n} {r : List K} {damping : K}
    {fixed : Vector Bool n} {x : Vector K n}
    (hx : Solves (matrix columns damping fixed) x (rightSide columns r fixed)) {i : Fin n}
    (hi : fixed.get i = true) : x.get i = 0 := by
  have hrow := hx i
  simp only [matrix_get, entry, hi, Bool.true_or, if_true, unitEntry_eq, ite_mul, one_mul, zero_mul,
    Finset.sum_ite_eq, Finset.mem_univ, rightSide_get] at hrow
  exact hrow

/-- Over exact numbers there is always a step, and it is what the solver finds. -/
theorem step?_eq_some [IsStrictOrderedRing K] {linear : LinearSolver K} (hlinear : linear.Exact)
    {damping : K} (hdamping : 0 < damping) :
    ∃ dx, step? linear columns r damping fixed = some dx ∧
      Solves (matrix columns damping fixed) dx (rightSide columns r fixed) := by
  have hsolves := hlinear n _ (rightSide columns r fixed)
    (matrix_positiveDefinite columns fixed hdamping)
  refine ⟨_, ?_, hsolves⟩
  have hfinite : ∀ x : Vector K n, allFinite x = true := fun x =>
    List.all_eq_true.mpr fun _ _ => rfl
  unfold step?
  dsimp only
  rw [hfinite, Bool.and_true, if_pos (List.all_eq_true.mpr fun x _ => hfinite x)]
  refine congrArg some (Vector.ext fun i hi => ?_)
  rw [Vector.getElem_ofFn]
  split
  · rename_i hfixed
    rw [zero_eq]
    exact (solves_fixed hsolves hfixed).symm
  · rfl

/-- The columns of fixed variables do not count. -/
theorem step?_congr (linear : LinearSolver K) {columns' : Vector (List K) n}
    (h : ∀ j, fixed.get j = false → columns'.get j = columns.get j) :
    step? linear columns' r damping fixed = step? linear columns r damping fixed := by
  have hmatrix : matrix columns' damping fixed = matrix columns damping fixed := by
    refine congrArg Vector.ofFn (funext fun i => congrArg Vector.ofFn (funext fun j => ?_))
    rw [entry, entry]
    cases hi : fixed.get i with
    | true => rfl
    | false =>
      cases hj : fixed.get j with
      | true => rfl
      | false => rw [h i hi, h j hj]
  have hright : rightSide columns' r fixed = rightSide columns r fixed := by
    refine congrArg Vector.ofFn (funext fun i => ?_)
    cases hi : fixed.get i with
    | true => rfl
    | false => rw [h i hi]
  unfold step?
  rw [hmatrix, hright]

end Step

/-! ## The free part -/

section Free

variable {m : Nat} (J : Matrix (Fin m) (Fin n) K) (r : Fin m → K) (damping : K)
  (fixed : Vector Bool n)

theorem entry_free (i j : FreeIndex fixed) :
    entry (columnLists J) damping fixed i j = freeMatrix J damping fixed i j := by
  have hunit : (unitEntry i.val j.val : K) =
      (1 : Matrix (FreeIndex fixed) (FreeIndex fixed) K) i j := by
    rw [unitEntry_eq, Matrix.one_apply]
    exact if_congr Subtype.ext_iff.symm rfl rfl
  rw [entry, i.2, j.2, columnLists, get_ofFn, get_ofFn, dot_ofFn, hunit]
  rfl

/-- On the free variables the step solves the damped normal equations of their columns. -/
theorem solves_free {dx : Vector K n}
    (hdx : Solves (matrix (columnLists J) damping fixed) dx
      (rightSide (columnLists J) (List.ofFn r) fixed)) :
    freeMatrix J damping fixed *ᵥ freeStep fixed dx = -freeGradient J r fixed := by
  ext i
  have hrow := hdx i
  rw [sum_free fun j hj => by rw [solves_fixed hdx hj, mul_zero]] at hrow
  simp only [matrix_get, entry_free] at hrow
  have hright : (rightSide (columnLists J) (List.ofFn r) fixed).get i =
      -freeGradient J r fixed i := by
    rw [rightSide_get, if_neg (by rw [i.2]; exact Bool.false_ne_true), columnLists, get_ofFn,
      dot_ofFn]
    rfl
  exact hrow.trans hright

end Free

/-! ## Descent -/

section Descent

variable [IsStrictOrderedRing K] {m : Nat} {J : Matrix (Fin m) (Fin n) K} {r : Fin m → K}
  {damping : K} (hdamping : 0 < damping) {fixed : Vector Bool n} {d : FreeIndex fixed → K}
  (hd : freeMatrix J damping fixed *ᵥ d = -freeGradient J r fixed)
include hdamping hd

/-- A step goes down as far as it moves the residuals and itself. -/
theorem gradient_nonpos : freeGradient J r fixed ⬝ᵥ d ≤ 0 ∧
    (freeGradient J r fixed ⬝ᵥ d = 0 ↔ freeGradient J r fixed = 0) := by
  have hself : ∀ {ι : Type} [Fintype ι] (v : ι → K), 0 ≤ v ⬝ᵥ v := fun v =>
    Finset.sum_nonneg fun i _ => mul_self_nonneg (v i)
  have hform : freeGradient J r fixed ⬝ᵥ d = -((freeColumns J fixed *ᵥ d) ⬝ᵥ
      (freeColumns J fixed *ᵥ d) + damping * (d ⬝ᵥ d)) := by
    rw [← freeMatrix_form, hd, neg_dotProduct, neg_neg]
  have hdamped : 0 ≤ damping * (d ⬝ᵥ d) := mul_nonneg hdamping.le (hself d)
  rw [hform]
  refine ⟨neg_nonpos.mpr (add_nonneg (hself _) hdamped), fun h => ?_, fun h => ?_⟩
  · -- without movement there is no gradient to solve for
    have hzero := ((add_eq_zero_iff_of_nonneg (hself _) hdamped).mp (neg_eq_zero.mp h)).2
    have hstill : d = 0 :=
      dotProduct_self_eq_zero.mp ((mul_eq_zero.mp hzero).resolve_left hdamping.ne')
    rw [hstill, mulVec_zero] at hd
    exact neg_eq_zero.mp hd.symm
  · rw [← hform, h, zero_dotProduct]

end Descent

/-- **The damped step.** Over exact numbers and with positive damping, the matrix of the normal
equations is positive definite for every Jacobian and every mask, so that it has a Cholesky factor
if square roots are exact, and the equations have one solution, which is the step. Fixed variables
do not move. On the free variables the step solves the damped normal equations of their columns, and
the other columns do not count. It goes down along the gradient, unless the gradient is zero. -/
theorem damped_step_descends {linear : LinearSolver K} [IsStrictOrderedRing K]
    (hlinear : linear.Exact) {damping : K} (hdamping : 0 < damping) {m : Nat}
    (J : Matrix (Fin m) (Fin n) K) (r : Fin m → K) (fixed : Vector Bool n) :
    PositiveDefinite (matrix (columnLists J) damping fixed) ∧
    (Elementary.ExactRoots K →
      (Linear.cholesky? (rowArrays (matrix (columnLists J) damping fixed))).isSome = true) ∧
    ∃ dx, step? linear (columnLists J) (List.ofFn r) damping fixed = some dx ∧
      (∀ x, Solves (matrix (columnLists J) damping fixed) x
        (rightSide (columnLists J) (List.ofFn r) fixed) ↔ x = dx) ∧
      (∀ j, fixed.get j = true → dx.get j = 0) ∧
      freeMatrix J damping fixed *ᵥ freeStep fixed dx = -freeGradient J r fixed ∧
      (∀ J' : Matrix (Fin m) (Fin n) K, freeColumns J' fixed = freeColumns J fixed →
        step? linear (columnLists J') (List.ofFn r) damping fixed = some dx) ∧
      freeGradient J r fixed ⬝ᵥ freeStep fixed dx ≤ 0 ∧
      (freeGradient J r fixed ⬝ᵥ freeStep fixed dx = 0 ↔ freeGradient J r fixed = 0) := by
  have hpositive := matrix_positiveDefinite (columnLists J) fixed hdamping
  obtain ⟨dx, hstep, hsolves⟩ := step?_eq_some (columnLists J) (List.ofFn r) fixed hlinear hdamping
  have hfree := solves_free J r damping fixed hsolves
  refine ⟨hpositive, fun hroots => hpositive.cholesky?_isSome hroots, dx, hstep, fun x => ?_,
    fun j hj => solves_fixed hsolves hj, hfree, fun J' hJ' => ?_, gradient_nonpos hdamping hfree⟩
  · exact ⟨fun hx => hpositive.solution_unique hx hsolves, fun hx => hx ▸ hsolves⟩
  · refine (step?_congr _ _ _ _ linear fun j hj => ?_).trans hstep
    rw [columnLists, columnLists, get_ofFn, get_ofFn]
    exact congrArg List.ofFn (funext fun i => congrFun (congrFun hJ' i) ⟨j, hj⟩)

/-- Of two variables the second one is held, and the first one goes down. -/
theorem damped_step_descends_held :
    ∃ dx : Vector ℝ 2,
      step? .byFactors (columnLists !![1, 2; 3, 4]) (List.ofFn ![1, 1]) 1 #v[false, true] =
        some dx ∧
      dx.get 1 = 0 ∧
      freeGradient !![1, 2; 3, 4] ![1, 1] #v[false, true] ⬝ᵥ freeStep #v[false, true] dx < 0 ∧
      (Linear.cholesky? (rowArrays (matrix (columnLists !![(1 : ℝ), 2; 3, 4]) 1
        #v[false, true]))).isSome = true := by
  have hgradient : freeGradient !![(1 : ℝ), 2; 3, 4] ![1, 1] #v[false, true] ≠ 0 := by
    intro hzero
    have hfirst : ∑ i, !![(1 : ℝ), 2; 3, 4] i 0 * ![1, 1] i = 0 := congrFun hzero ⟨0, rfl⟩
    rw [Fin.sum_univ_two] at hfirst
    change (1 : ℝ) * 1 + 3 * 1 = 0 at hfirst
    norm_num at hfirst
  obtain ⟨-, hfactor, dx, hstep, -, hheld, -, -, hdown, hlevel⟩ :=
    damped_step_descends (LinearSolver.byFactors_exact Elementary.exactRoots_real) one_pos
      !![1, 2; 3, 4] ![1, 1] #v[false, true]
  exact ⟨dx, hstep, hheld 1 rfl, hdown.lt_of_ne fun h => hgradient (hlevel.mp h),
    hfactor Elementary.exactRoots_real⟩

end NormalEquations

end Drafting
