import Mathlib.Algebra.BigOperators.Field
import Mathlib.LinearAlgebra.Matrix.ToLinearEquiv
import Drafting.Proofs.Compilation
import Drafting.Proofs.ExactArithmetic
import Drafting.Solver.NormalEquations

/-!
The damped normal equations in exact arithmetic. The matrix is symmetric, and with positive damping
its quadratic form is a sum of squares with positive weights, so that it is positive definite: what
fixed variables contribute is their own square, and what free variables contribute is the square of
the Jacobian's image and the damping.

A solver is exact if it solves positive definite systems. A step that such a solver finds is zero
where the column of the Jacobian is: the equation of that variable has nothing but the damping.
-/

namespace Drafting

open Scalar

variable {K : Type} [Field K] [LinearOrder K] {n : Nat}

/-! ## Exact solvers -/

/-- A vector solves a system of linear equations, whose matrix is given by rows. -/
def Solves (a : Vector (Vector K n) n) (x b : Vector K n) : Prop :=
  ∀ i, ∑ j, (a.get i).get j * x.get j = b.get i

/-- A symmetric matrix whose quadratic form is positive everywhere but at zero. -/
structure PositiveDefinite (a : Vector (Vector K n) n) : Prop where
  symmetric : ∀ i j, (a.get i).get j = (a.get j).get i
  positive : ∀ y : Fin n → K, y ≠ 0 → 0 < ∑ i, ∑ j, y i * (a.get i).get j * y j

/-- A solver that solves every positive definite system. -/
def LinearSolver.Exact (linear : LinearSolver K) : Prop :=
  ∀ (n : Nat) (a : Vector (Vector K n) n) (b : Vector K n),
    PositiveDefinite a → Solves a (linear n a b) b

/-- A matrix that is given by rows. -/
def ofRows (a : Vector (Vector K n) n) : Matrix (Fin n) (Fin n) K := .of fun i j => (a.get i).get j

/-- The solver that takes every unknown for the quotient of two determinants. -/
def LinearSolver.byDeterminants : LinearSolver K := fun _ a b =>
  Vector.ofFn fun i => (ofRows a).cramer b.get i / (ofRows a).det

theorem PositiveDefinite.det_ne_zero {a : Vector (Vector K n) n} (ha : PositiveDefinite a) :
    (ofRows a).det ≠ 0 := by
  intro hdet
  obtain ⟨y, hy, hzero⟩ := Matrix.exists_mulVec_eq_zero_iff.mpr hdet
  have hpositive := ha.positive y hy
  have hform : ∑ i, ∑ j, y i * (a.get i).get j * y j = 0 := by
    refine Finset.sum_eq_zero fun i _ => ?_
    have hrow : ∑ j, (a.get i).get j * y j = 0 := congrFun hzero i
    simp only [mul_assoc, ← Finset.mul_sum, hrow, mul_zero]
  rw [hform] at hpositive
  exact lt_irrefl 0 hpositive

theorem LinearSolver.byDeterminants_exact : (byDeterminants : LinearSolver K).Exact := by
  intro n a b ha i
  have hcramer : ∑ j, (a.get i).get j * (ofRows a).cramer b.get j = (ofRows a).det * b.get i :=
    congrFun (Matrix.mulVec_cramer (ofRows a) b.get) i
  simp only [byDeterminants, get_ofFn, ← mul_div_assoc, ← Finset.sum_div]
  rw [hcramer, mul_div_cancel_left₀ _ ha.det_ne_zero]

namespace NormalEquations

variable [Elementary K] (columns : Vector (List K) n) (damping : K) (fixed : Vector Bool n)

/-! ## The matrix -/

theorem matrix_get (i j : Fin n) :
    ((matrix columns damping fixed).get i).get j = entry columns damping fixed i j := by
  rw [matrix, get_ofFn, get_ofFn]

theorem unitEntry_eq (i j : Fin n) : (unitEntry i j : K) = if i = j then 1 else 0 := by
  rw [unitEntry, one_eq, zero_eq]

/-- The part of a vector that belongs to free variables. -/
def freePart (y : Fin n → K) (i : Fin n) : K := if fixed.get i then 0 else y i

/-- What is on the diagonal besides the Jacobian. -/
def weight (i : Fin n) : K := if fixed.get i then 1 else damping

/-- An entry is a product of columns, of free variables only, with the weight on the diagonal. -/
theorem entry_form (y : Fin n → K) {m : Nat} (hm : ∀ i, (columns.get i).length ≤ m) (i j : Fin n) :
    y i * entry columns damping fixed i j * y j =
      (∑ l ∈ Finset.range m, freePart fixed y i * (columns.get i).getD l 0 *
        (freePart fixed y j * (columns.get j).getD l 0)) +
      if i = j then weight damping fixed i * y i ^ 2 else 0 := by
  have hdot : dot (columns.get i) (columns.get j) =
      ∑ l ∈ Finset.range m, (columns.get i).getD l 0 * (columns.get j).getD l 0 := dot_eq _ _ (hm i)
  rw [entry, unitEntry_eq, hdot]
  by_cases hij : i = j
  · subst hij
    cases hi : fixed.get i with
    | true => simp [freePart, weight, hi, pow_two]
    | false =>
      simp only [freePart, weight, hi, Bool.or_self, Bool.false_eq_true, if_false, if_true]
      rw [mul_add, add_mul, Finset.mul_sum, Finset.sum_mul]
      congr 1
      · exact Finset.sum_congr rfl fun l _ => by ring
      · ring
  · simp only [if_neg hij, mul_zero, add_zero]
    cases hi : fixed.get i with
    | true => simp [freePart, hi]
    | false =>
      cases hj : fixed.get j with
      | true => simp [freePart, hj]
      | false =>
        simp only [freePart, hi, hj, Bool.or_self, Bool.false_eq_true, if_false]
        rw [Finset.mul_sum, Finset.sum_mul]
        exact Finset.sum_congr rfl fun l _ => by ring

/-- The quadratic form of the matrix is a sum of squares. -/
theorem quadraticForm_eq (y : Fin n → K) {m : Nat} (hm : ∀ i, (columns.get i).length ≤ m) :
    ∑ i, ∑ j, y i * entry columns damping fixed i j * y j =
      (∑ l ∈ Finset.range m, (∑ i, freePart fixed y i * (columns.get i).getD l 0) ^ 2) +
      ∑ i, weight damping fixed i * y i ^ 2 := by
  simp only [entry_form columns damping fixed y hm, Finset.sum_add_distrib]
  congr 1
  · simp only [pow_two, Finset.sum_mul_sum]
    rw [Finset.sum_comm (s := Finset.range m)]
    exact Finset.sum_congr rfl fun i _ => Finset.sum_comm
  · simp

/-! ## Definiteness -/

theorem entry_comm (i j : Fin n) :
    entry columns damping fixed i j = entry columns damping fixed j i := by
  have hunit : (unitEntry i j : K) = unitEntry j i := by
    rw [unitEntry_eq, unitEntry_eq]
    exact if_congr eq_comm rfl rfl
  rw [entry, entry, Bool.or_comm, dot_comm, hunit]

section Ordered

variable [IsStrictOrderedRing K]

omit [Elementary K] in
theorem weight_pos {damping : K} (hdamping : 0 < damping) (i : Fin n) :
    0 < weight damping fixed i := by
  unfold weight
  split
  · exact zero_lt_one
  · exact hdamping

/-- Positive damping makes the matrix positive definite. -/
theorem matrix_positiveDefinite {damping : K} (hdamping : 0 < damping) :
    PositiveDefinite (matrix columns damping fixed) where
  symmetric i j := by
    rw [matrix_get, matrix_get, entry_comm]
  positive y hy := by
    have hm : ∀ i, (columns.get i).length ≤ Finset.univ.sup fun j => (columns.get j).length :=
      fun i => Finset.le_sup (f := fun j => (columns.get j).length) (Finset.mem_univ i)
    obtain ⟨i, hi⟩ : ∃ i, y i ≠ 0 := Function.ne_iff.mp hy
    have hweighted : 0 < ∑ i, weight damping fixed i * y i ^ 2 := by
      refine Finset.sum_pos' (fun j _ => ?_) ⟨i, Finset.mem_univ i, ?_⟩
      · exact mul_nonneg (weight_pos fixed hdamping j).le (sq_nonneg _)
      · exact mul_pos (weight_pos fixed hdamping i) (sq_pos_of_ne_zero hi)
    simp only [matrix_get]
    rw [quadraticForm_eq columns damping fixed y hm]
    exact add_pos_of_nonneg_of_pos (Finset.sum_nonneg fun _ _ => sq_nonneg _) hweighted

/-! ## Variables that nothing depends on -/

/-- An exact step leaves a variable whose column is zero where it is. -/
theorem step_zero {linear : LinearSolver K} (hlinear : linear.Exact) {damping : K}
    (hdamping : 0 < damping) {columns : Vector (List K) n} {fixed : Vector Bool n} {r : List K}
    {dx : Vector K n} (hstep : step? linear columns r damping fixed = some dx) {i : Fin n}
    (hcolumn : ∀ a ∈ columns.get i, a = 0) : dx.get i = 0 := by
  unfold step? at hstep
  simp only at hstep
  split at hstep
  case isFalse => cases hstep
  case isTrue =>
    cases hstep
    rw [get_ofFn]
    split
    · exact zero_eq
    · rename_i hfree
      -- The equation of the variable: only the damping is left in its row.
      have hrow := hlinear n _ (rightSide columns r fixed)
        (matrix_positiveDefinite columns fixed hdamping) i
      have hentry : ∀ j, entry columns damping fixed i j = if i = j then damping else 0 := by
        intro j
        rw [entry, unitEntry_eq, dot_zeros hcolumn]
        by_cases hij : i = j
        · subst hij
          simp [hfree]
        · simp [hij]
      have hright : (rightSide columns r fixed).get i = 0 := by
        rw [rightSide, get_ofFn, if_neg hfree, dot_zeros hcolumn, neg_zero]
      simp only [matrix_get, hentry, ite_mul, zero_mul, Finset.sum_ite_eq, Finset.mem_univ,
        if_true, hright] at hrow
      exact (mul_eq_zero.mp hrow).resolve_left hdamping.ne'

end Ordered

end NormalEquations

end Drafting
