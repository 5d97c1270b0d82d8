import Mathlib.Algebra.BigOperators.Fin
import Mathlib.Algebra.Order.Field.Basic
import Mathlib.Data.Rat.Sqrt
import Drafting.Scalar

/-!
Exact arithmetic. An ordered field has every operation of a scalar but for the elementary functions,
which may be anything: nothing is assumed of roots, angles and the reading of documents. There are
no undefined numbers, so that every number is finite, comparing is a total order, and the operations
on lists are sums.
-/

namespace Drafting

/-- Functions on the numbers of a field that its arithmetic does not determine. -/
class Elementary (K : Type) where
  sqrt : K → K
  hypot : K → K → K
  acos : K → K
  cos : K → K
  sin : K → K
  atan2 : K → K → K
  pi : K
  read : Value → Except Error K

/-- The numbers of an ordered field as scalars. -/
instance exactScalar {K : Type} [Field K] [LinearOrder K] [Elementary K] : Scalar K where
  decimal n places := n / 10 ^ places
  lt a b := decide (a < b)
  le a b := decide (a ≤ b)
  abs a := |a|
  sqrt := Elementary.sqrt
  hypot := Elementary.hypot
  acos := Elementary.acos
  cos := Elementary.cos
  sin := Elementary.sin
  atan2 := Elementary.atan2
  pi := Elementary.pi
  isFinite _ := true
  isInfinite _ := false
  read := Elementary.read

/-- Square roots are exact: every number that is not negative has one that is not negative. -/
structure Elementary.ExactRoots (K : Type) [Field K] [LinearOrder K] [Elementary K] : Prop where
  nonneg : ∀ a : K, 0 ≤ sqrt a
  mul_self : ∀ a : K, 0 ≤ a → sqrt a * sqrt a = a

/-- Rational numbers, with the square roots of squares. No angle but zero has a rational measure. -/
instance : Elementary ℚ where
  sqrt := Rat.sqrt
  hypot a b := Rat.sqrt (a * a + b * b)
  acos _ := 0
  cos _ := 1
  sin _ := 0
  atan2 _ _ := 0
  pi := 0
  read
    | .int n => .ok n
    | v => .error (.noNumber v)

namespace Scalar

variable {K : Type} [Field K] [LinearOrder K] [Elementary K]

theorem zero_eq : (zero : K) = 0 := by
  simp [zero, decimal]

theorem one_eq : (one : K) = 1 := by
  simp [one, decimal]

theorem finiteOr_eq (a b : K) : finiteOr a b = a := rfl

theorem atLeast_eq (m a : K) : atLeast m a = max m a := by
  unfold atLeast
  by_cases h : m ≤ a
  · simp [le, h]
  · simp [le, h, max_eq_left (not_le.mp h).le]

theorem larger_eq (a b : K) : larger a b = max a b := by
  unfold larger
  by_cases h : a < b
  · simp [lt, h, max_eq_right h.le]
  · simp [lt, h, max_eq_left (not_lt.mp h)]

theorem sum_eq (xs : List K) : sum xs = xs.sum := by
  unfold sum
  rw [zero_eq, List.sum_eq_foldl]

/-- A scalar product, place by place. What lies beyond the end of a list counts as zero. -/
theorem dot_eq (xs ys : List K) {m : Nat} (h : xs.length ≤ m) :
    dot xs ys = ∑ l ∈ Finset.range m, xs.getD l 0 * ys.getD l 0 := by
  unfold dot
  rw [sum_eq]
  induction xs generalizing ys m with
  | nil => simp
  | cons x xs ih =>
    cases ys with
    | nil => simp
    | cons y ys =>
      obtain ⟨m, rfl⟩ : ∃ m', m = m' + 1 := ⟨m - 1, by simp at h; omega⟩
      rw [Finset.sum_range_succ', List.zipWith_cons_cons, List.sum_cons,
        ih ys (by simpa using h), add_comm]
      simp

theorem dot_comm (xs ys : List K) : dot xs ys = dot ys xs := by
  rw [dot_eq xs ys (le_max_left xs.length ys.length),
    dot_eq ys xs (le_max_right xs.length ys.length)]
  exact Finset.sum_congr rfl fun l _ => mul_comm _ _

/-- A list of zeros has no product with anything. -/
theorem dot_zeros {xs : List K} (h : ∀ a ∈ xs, a = 0) (ys : List K) : dot xs ys = 0 := by
  rw [dot_eq xs ys le_rfl]
  refine Finset.sum_eq_zero fun l hl => ?_
  have hzero : xs.getD l 0 = 0 := by
    have hl : l < xs.length := Finset.mem_range.mp hl
    rw [List.getD_eq_getElem?_getD, List.getElem?_eq_getElem hl]
    exact h _ (List.getElem_mem hl)
  rw [hzero, zero_mul]

end Scalar

end Drafting
