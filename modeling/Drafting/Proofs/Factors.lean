import Mathlib.Algebra.BigOperators.Intervals
import Drafting.Linear.Cholesky
import Drafting.Proofs.NormalEquations

/-!
Cholesky factors in exact arithmetic. Rows that end at the diagonal are solved by substitution: the
equations before a row hold of the numbers before it, and the number that is put after them makes
the row hold. From the last row on the same solves the transposed rows.

A factor of the rows above gives the pivot of the next row as a value of the quadratic form, taken
at the numbers that backward substitution finds, so that no pivot of a positive definite matrix
fails to be positive. With exact square roots such a matrix has a factor, and what is found with it
solves the system.
-/

namespace Drafting.Linear

open Scalar Finset

/-! ## Triangular systems -/

section Substitution

variable {K : Type} [Field K]

theorem getD_push {β : Type} (xs : Array β) (v d : β) (t : Nat) :
    (xs.push v).getD t d = if t = xs.size then v else xs.getD t d := by
  rw [Array.getD_eq_getD_getElem?, Array.getElem?_push, Array.getD_eq_getD_getElem?]
  split <;> rfl

theorem getD_reverse (xs : Array K) {i : Nat} (h : i < xs.size) :
    xs.reverse.getD i 0 = xs.getD (xs.size - 1 - i) 0 := by
  rw [Array.getD_eq_getD_getElem?, Array.getElem?_reverse h, Array.getD_eq_getD_getElem?]

/-- The numbers that were found so far solve the equations of a triangular system so far. -/
structure Substituted (m : Nat → Nat → K) (b : Nat → K) (j : Nat) (xs : Array K) : Prop where
  size : xs.size = j
  solves : ∀ i < j, ∑ t ∈ range (i + 1), xs.getD t 0 * m i t = b i

/-- The next number follows from those before it. -/
theorem Substituted.push {m : Nat → Nat → K} {b : Nat → K} {j : Nat} {xs : Array K}
    (h : Substituted m b j xs) (hdiagonal : m j j ≠ 0) :
    Substituted m b (j + 1)
      (xs.push ((b j - ∑ t ∈ range j, xs.getD t 0 * m j t) / m j j)) := by
  have hbefore : ∀ v : K, ∀ i, ∀ k ≤ j, ∑ t ∈ range k, (xs.push v).getD t 0 * m i t =
      ∑ t ∈ range k, xs.getD t 0 * m i t := by
    intro v i k hk
    refine sum_congr rfl fun t ht => ?_
    rw [getD_push, h.size, if_neg ((mem_range.mp ht).trans_le hk).ne]
  refine ⟨by rw [Array.size_push, h.size], fun i hi => ?_⟩
  rcases Nat.lt_succ_iff_lt_or_eq.mp hi with hi | rfl
  · rw [hbefore _ _ _ hi, h.solves i hi]
  · rw [sum_range_succ, hbefore _ _ _ le_rfl, getD_push, h.size, if_pos rfl,
      div_mul_cancel₀ _ hdiagonal, add_sub_cancel]

/-- An entry of a matrix that is given by rows, zero beyond them. -/
def cell (rows : Array (Array K)) (i j : Nat) : K := (rows.getD i #[]).getD j 0

theorem cell_push (rows : Array (Array K)) (l : Array K) (i j : Nat) :
    cell (rows.push l) i j = if i = rows.size then l.getD j 0 else cell rows i j := by
  rw [cell, cell, getD_push]
  split <;> rfl

/-- Rows that end at the diagonal, where they are not zero. -/
structure Staircase (rows : Array (Array K)) : Prop where
  size : ∀ i (h : i < rows.size), rows[i].size = i + 1
  diagonal : ∀ i < rows.size, cell rows i i ≠ 0

theorem cell_eq {rows : Array (Array K)} {i : Nat} (h : i < rows.size) (j : Nat) :
    cell rows i j = rows[i].getD j 0 := by
  rw [cell, Array.getElem_eq_getD #[]]

theorem Staircase.cell_eq_zero {rows : Array (Array K)} (h : Staircase rows) {i j : Nat}
    (hi : i < rows.size) (hij : i < j) : cell rows i j = 0 := by
  rw [cell_eq hi, Array.getD_eq_getD_getElem?, Array.getElem?_eq_none (by rw [h.size i hi]; omega)]
  rfl

/-- A sum over a row of a staircase ends at the diagonal. -/
theorem Staircase.sum_row {lower : Array (Array K)} (h : Staircase lower) (f : Nat → K) {i m : Nat}
    (hi : i < lower.size) (hm : i < m) :
    ∑ t ∈ range m, f t * cell lower i t = ∑ t ∈ range (i + 1), f t * cell lower i t := by
  refine (sum_subset (range_subset_range.mpr hm) fun t _ ht => ?_).symm
  rw [h.cell_eq_zero hi (by simpa using ht), mul_zero]

/-- The diagonal is there, so that no replacement for it counts. -/
theorem Staircase.getD_diagonal {rows : Array (Array K)} (h : Staircase rows) {i : Nat}
    (hi : i < rows.size) (d : K) : rows[i].getD i d = cell rows i i := by
  have hlast : i < rows[i].size := by
    rw [h.size i hi]
    exact Nat.lt_succ_self i
  rw [cell_eq hi, ← Array.getElem_eq_getD (h := hlast), ← Array.getElem_eq_getD (h := hlast)]

end Substitution

variable {K : Type} [Field K] [LinearOrder K] [Elementary K]

theorem dot_eq_sum {xs : Array K} {m : Nat} (h : xs.size ≤ m) (ys : Array K) :
    dot xs ys = ∑ t ∈ range m, xs.getD t 0 * ys.getD t 0 := by
  have hlists : dot xs ys = Scalar.dot xs.toList ys.toList := by
    rw [dot, ← Array.foldl_toList, Array.toList_zipWith]
    rfl
  rw [hlists, Scalar.dot_eq _ _ h]
  simp

/-- Forward substitution, from the first equation to the last. -/
theorem leftOf_substituted {lower : Array (Array K)} (h : Staircase lower) (b : Array K) :
    Substituted (cell lower) (fun i => b.getD i 0) lower.size (leftOf lower b) := by
  refine Array.foldl_induction (Substituted (cell lower) fun i => b.getD i 0)
    ⟨rfl, fun i hi => absurd hi (Nat.not_lt_zero i)⟩ ?_
  intro i xs hxs
  have hpush := hxs.push (h.diagonal i i.isLt)
  have hdot : dot xs lower[i] = ∑ t ∈ range i, xs.getD t 0 * cell lower i t := by
    rw [dot_eq_sum hxs.size.le]
    exact sum_congr rfl fun t _ => by rw [cell_eq i.isLt]; rfl
  have hdiagonal : lower[i].getD i one = cell lower i i := h.getD_diagonal i.isLt one
  dsimp only
  rw [hxs.size, hdot, hdiagonal, zero_eq]
  exact hpush

/-- The solution of a lower triangular system. -/
theorem forward_solves {lower : Array (Array K)} (h : Staircase lower) (b : Array K) {i : Nat}
    (hi : i < lower.size) :
    ∑ t ∈ range lower.size, (forward lower b).getD t 0 * cell lower i t = b.getD i 0 := by
  rw [h.sum_row _ hi hi]
  exact (leftOf_substituted h b).solves i hi

/-- The entries of the transpose of a staircase, from the last row and the last column on. -/
def turned (lower : Array (Array K)) (s t : Nat) : K :=
  cell lower (lower.size - 1 - t) (lower.size - 1 - s)

/-- Backward substitution is substitution from the last unknown on. -/
theorem foldl_withPrevious_substituted {lower : Array (Array K)} (h : Staircase lower)
    (y : Array K) {s : Nat} (hs : s ≤ lower.size) :
    Substituted (turned lower) (fun s => y.getD (lower.size - 1 - s) 0) s
      ((List.range s).foldl (withPrevious lower y) #[]) := by
  induction s with
  | zero => exact ⟨rfl, fun i hi => absurd hi (Nat.not_lt_zero i)⟩
  | succ s ih =>
    have hxs := ih (Nat.le_of_succ_le hs)
    have hi : lower.size - 1 - s < lower.size := by omega
    rw [List.range_succ, List.foldl_append, List.foldl_cons, List.foldl_nil]
    generalize (List.range s).foldl (withPrevious lower y) #[] = xs at hxs ⊢
    have hpush := hxs.push (h.diagonal (lower.size - 1 - s) hi)
    have hdot : dot xs ((List.range s).map fun t =>
        (lower.getD (lower.size - 1 - t) #[]).getD (lower.size - 1 - s) zero).toArray =
          ∑ t ∈ range s, xs.getD t 0 * turned lower s t := by
      rw [dot_eq_sum hxs.size.le]
      refine sum_congr rfl fun t ht => congrArg (xs.getD t 0 * ·) ?_
      simp [turned, cell, mem_range.mp ht, zero_eq]
    have hdiagonal : (lower.getD (lower.size - 1 - s) #[]).getD (lower.size - 1 - s) one =
        turned lower s s := by
      rw [← Array.getElem_eq_getD (h := hi), h.getD_diagonal hi]
      rfl
    unfold withPrevious
    dsimp only
    rw [hdot, hdiagonal, zero_eq]
    exact hpush

/-- The solution of an upper triangular system, which is given by its transpose. -/
theorem backward_solves {lower : Array (Array K)} (h : Staircase lower) (y : Array K) {i : Nat}
    (hi : i < lower.size) :
    ∑ j ∈ range lower.size, (backward lower y).getD j 0 * cell lower j i = y.getD i 0 := by
  have hxs := foldl_withPrevious_substituted h y le_rfl
  rw [backward]
  generalize (List.range lower.size).foldl (withPrevious lower y) #[] = xs at hxs ⊢
  have hlast : lower.size - 1 - (lower.size - 1 - i) = i := by omega
  have hsolves := hxs.solves (lower.size - 1 - i) (by omega)
  rw [hlast] at hsolves
  rw [← hsolves, ← sum_range_reflect]
  have hterm : ∀ t ∈ range lower.size,
      xs.reverse.getD (lower.size - 1 - t) 0 * cell lower (lower.size - 1 - t) i =
        xs.getD t 0 * turned lower (lower.size - 1 - i) t := by
    intro t ht
    have ht := mem_range.mp ht
    have hplace : lower.size - 1 - (lower.size - 1 - t) = t := by omega
    rw [getD_reverse xs (by rw [hxs.size]; omega), hxs.size, hplace, turned, hlast]
  rw [sum_congr rfl hterm]
  refine (sum_subset (range_subset_range.mpr (by omega)) fun t ht hout => ?_).symm
  have ht := mem_range.mp ht
  have hout : lower.size - 1 - i < t := by simpa [Nat.lt_succ_iff] using hout
  rw [turned, hlast, h.cell_eq_zero (by omega) (by omega), mul_zero]

/-! ## Factors -/

section Definite

variable {K : Type} [Field K] [LinearOrder K]

/-- Rows of a lower triangular matrix whose product with its transpose has given entries. -/
structure Factors (a : Nat → Nat → K) (lower : Array (Array K)) : Prop where
  size : ∀ i (h : i < lower.size), lower[i].size = i + 1
  positive : ∀ i < lower.size, 0 < cell lower i i
  product : ∀ i < lower.size, ∀ j ≤ i,
    ∑ t ∈ range (j + 1), cell lower i t * cell lower j t = a i j

/-- Entries of a symmetric matrix whose quadratic form is positive everywhere but at zero. -/
structure Definite (a : Nat → Nat → K) (n : Nat) : Prop where
  symmetric : ∀ i < n, ∀ j < n, a i j = a j i
  positive : ∀ y : Nat → K, (∃ i < n, y i ≠ 0) →
    0 < ∑ i ∈ range n, ∑ j ∈ range n, y i * a i j * y j

theorem Factors.staircase {a : Nat → Nat → K} {lower : Array (Array K)} (h : Factors a lower) :
    Staircase lower :=
  ⟨h.size, fun i hi => (h.positive i hi).ne'⟩

/-- The product of two rows of the factor. -/
theorem Factors.product_eq {a : Nat → Nat → K} {lower : Array (Array K)} (h : Factors a lower)
    {n : Nat} (ha : Definite a n) (hn : lower.size ≤ n) {i j : Nat} (hi : i < lower.size)
    (hj : j < lower.size) :
    ∑ t ∈ range lower.size, cell lower i t * cell lower j t = a i j := by
  rcases Nat.le_total j i with hji | hij
  · rw [h.staircase.sum_row _ hj hj, h.product i hi j hji]
  · rw [ha.symmetric i (by omega) j (by omega), ← h.product j hj i hij,
      ← h.staircase.sum_row _ hi hi]
    exact sum_congr rfl fun t _ => mul_comm _ _

/-- A factor with one more row, whose last number is the root of what is left of the diagonal. -/
theorem Factors.push {a : Nat → Nat → K} {lower : Array (Array K)} (h : Factors a lower)
    {left : Array K} (hleft : Substituted (cell lower) (a lower.size) lower.size left) {root : K}
    (hpositive : 0 < root)
    (hroot : root * root =
      a lower.size lower.size - ∑ t ∈ range lower.size, left.getD t 0 * left.getD t 0) :
    Factors a (lower.push (left.push root)) := by
  have hlast : ∀ j < lower.size, (left.push root).getD j 0 = left.getD j 0 := fun j hj => by
    rw [getD_push, hleft.size, if_neg hj.ne]
  have hcorner : (left.push root).getD lower.size 0 = root := by
    rw [getD_push, hleft.size, if_pos rfl]
  refine ⟨fun i hi => ?_, fun i hi => ?_, fun i hi j hj => ?_⟩
  · rw [Array.getElem_push]
    split
    · exact h.size i _
    · rw [Array.size_push, hleft.size]
      rw [Array.size_push] at hi
      omega
  · rw [cell_push]
    rw [Array.size_push] at hi
    split
    · rename_i hi
      rw [hi, hcorner]
      exact hpositive
    · exact h.positive i (by omega)
  · rw [Array.size_push] at hi
    by_cases hik : i = lower.size
    · subst hik
      rcases hj.lt_or_eq with hj | rfl
      · rw [← hleft.solves j hj]
        refine sum_congr rfl fun t ht => ?_
        have hbefore : t < lower.size := by
          have := mem_range.mp ht
          omega
        rw [cell_push, cell_push, if_pos rfl, if_neg hj.ne, hlast t hbefore]
      · have hrow : ∀ t ∈ range lower.size, cell (lower.push (left.push root)) lower.size t *
            cell (lower.push (left.push root)) lower.size t = left.getD t 0 * left.getD t 0 := by
          intro t ht
          rw [cell_push, if_pos rfl, hlast t (mem_range.mp ht)]
        rw [sum_range_succ, sum_congr rfl hrow, cell_push, if_pos rfl, hcorner, hroot,
          add_sub_cancel]
    · rw [← h.product i (by omega) j hj]
      refine sum_congr rfl fun t _ => ?_
      rw [cell_push, cell_push, if_neg hik, if_neg (by omega)]

/-- The quadratic form where one number is one, those before it are given, and those after it are
zero. -/
theorem Definite.form_pos {a : Nat → Nat → K} {n : Nat} (ha : Definite a n) {k : Nat} (hk : k < n)
    (w : Nat → K) :
    0 < (∑ i ∈ range k, ∑ j ∈ range k, w i * a i j * w j) - 2 * (∑ i ∈ range k, w i * a k i) +
      a k k := by
  let y : Nat → K := fun i => if i < k then -w i else if i = k then 1 else 0
  have hbelow : ∀ i ∈ range k, y i = -w i := fun i hi => if_pos (mem_range.mp hi)
  have hat : y k = 1 := by simp [y]
  have hbeyond : ∀ i, i ∉ range (k + 1) → y i = 0 := by
    intro i hi
    have hki : k < i := by simpa [Nat.lt_succ_iff] using hi
    simp [y, hki.not_gt, hki.ne']
  have hpos := ha.positive y ⟨k, hk, by rw [hat]; exact one_ne_zero⟩
  have hsubset : range (k + 1) ⊆ range n := range_subset_range.mpr hk
  have hrow : ∀ i, ∑ j ∈ range n, y i * a i j * y j =
      y i * (a i k - ∑ j ∈ range k, a i j * w j) := by
    intro i
    rw [← sum_subset hsubset fun j _ hj => by rw [hbeyond j hj, mul_zero], sum_range_succ, hat,
      sum_congr rfl fun j hj => by rw [hbelow j hj], mul_sub, mul_sum, mul_one, sub_eq_add_neg,
      add_comm, ← sum_neg_distrib]
    exact congrArg _ (sum_congr rfl fun j _ => by ring)
  simp only [hrow] at hpos
  rw [← sum_subset hsubset fun i _ hi => by rw [hbeyond i hi, zero_mul], sum_range_succ,
    hat] at hpos
  have hleft : ∑ i ∈ range k, y i * (a i k - ∑ j ∈ range k, a i j * w j) =
      (∑ i ∈ range k, ∑ j ∈ range k, w i * a i j * w j) - ∑ i ∈ range k, w i * a k i := by
    rw [← sum_sub_distrib]
    refine sum_congr rfl fun i hi => ?_
    rw [hbelow i hi, ha.symmetric i ((mem_range.mp hi).trans hk) k hk]
    simp only [mul_assoc, ← mul_sum]
    ring
  have hright : ∑ j ∈ range k, a k j * w j = ∑ i ∈ range k, w i * a k i :=
    sum_congr rfl fun j _ => mul_comm _ _
  rw [hleft, hright] at hpos
  convert hpos using 1
  ring

end Definite

section Pivots

variable {a : Nat → Nat → K} {n : Nat} (ha : Definite a n) {above : Array (Array K)}
  (h : Factors a above) (hk : above.size < n) {row : Array K}
  (hrow : ∀ j ≤ above.size, row.getD j 0 = a above.size j)
include ha h hk hrow

/-- What is left of the next diagonal entry for the pivot is the quadratic form at the numbers that
backward substitution finds. -/
theorem pivot_pos :
    0 < a above.size above.size -
      ∑ t ∈ range above.size, (leftOf above row).getD t 0 * (leftOf above row).getD t 0 := by
  let v : Nat → K := fun t => (leftOf above row).getD t 0
  let w : Nat → K := fun i => (backward above (leftOf above row)).getD i 0
  have hv : ∀ i < above.size, a above.size i = ∑ t ∈ range above.size, v t * cell above i t := by
    intro i hi
    rw [← hrow i hi.le]
    exact (forward_solves h.staircase row hi).symm
  have hw : ∀ t ∈ range above.size, ∑ i ∈ range above.size, w i * cell above i t = v t :=
    fun t ht => backward_solves h.staircase (leftOf above row) (mem_range.mp ht)
  have hlinear : ∑ i ∈ range above.size, w i * a above.size i =
      ∑ t ∈ range above.size, v t * v t := by
    calc ∑ i ∈ range above.size, w i * a above.size i
        = ∑ i ∈ range above.size, ∑ t ∈ range above.size, v t * (w i * cell above i t) := by
          refine sum_congr rfl fun i hi => ?_
          rw [hv i (mem_range.mp hi), mul_sum]
          exact sum_congr rfl fun t _ => by ring
      _ = ∑ t ∈ range above.size, v t * v t := by
          rw [sum_comm]
          exact sum_congr rfl fun t ht => by rw [← mul_sum, hw t ht]
  have hquadratic : ∑ i ∈ range above.size, ∑ j ∈ range above.size, w i * a i j * w j =
      ∑ t ∈ range above.size, v t * v t := by
    calc ∑ i ∈ range above.size, ∑ j ∈ range above.size, w i * a i j * w j
        = ∑ i ∈ range above.size, ∑ j ∈ range above.size, ∑ t ∈ range above.size,
            w i * cell above i t * (w j * cell above j t) := by
          refine sum_congr rfl fun i hi => sum_congr rfl fun j hj => ?_
          rw [← h.product_eq ha hk.le (mem_range.mp hi) (mem_range.mp hj), mul_sum, sum_mul]
          exact sum_congr rfl fun t _ => by ring
      _ = ∑ i ∈ range above.size, ∑ t ∈ range above.size, w i * cell above i t * v t := by
          refine sum_congr rfl fun i _ => ?_
          rw [sum_comm]
          exact sum_congr rfl fun t ht => by rw [← mul_sum, hw t ht]
      _ = ∑ t ∈ range above.size, v t * v t := by
          rw [sum_comm]
          exact sum_congr rfl fun t ht => by rw [← sum_mul, hw t ht]
  have hform := ha.form_pos hk w
  rw [hlinear, hquadratic] at hform
  convert hform using 1
  ring

/-- The next row of the factor. -/
theorem factorRow?_factors (hroots : Elementary.ExactRoots K) :
    ∃ l, factorRow? above row = some l ∧ Factors a (above.push l) := by
  have hleft := leftOf_substituted h.staircase row
  have hpivot := pivot_pos ha h hk hrow
  have hsquare : dot (leftOf above row) (leftOf above row) =
      ∑ t ∈ range above.size, (leftOf above row).getD t 0 * (leftOf above row).getD t 0 :=
    dot_eq_sum hleft.size.le _
  rw [← hsquare] at hpivot
  have hfound : factorRow? above row = some ((leftOf above row).push
      (Scalar.sqrt (a above.size above.size - dot (leftOf above row) (leftOf above row)))) := by
    rw [factorRow?, hleft.size, zero_eq, hrow above.size le_rfl]
    exact if_pos (decide_eq_true hpivot)
  have hroot := hroots.mul_self _ hpivot.le
  have hpositive := (hroots.nonneg _).lt_of_ne fun hzero => by
    rw [← hzero, zero_mul] at hroot
    exact hpivot.ne hroot
  have hleft : Substituted (cell above) (a above.size) above.size (leftOf above row) :=
    ⟨hleft.size, fun i hi => (hleft.solves i hi).trans (hrow i hi.le)⟩
  exact ⟨_, hfound, h.push hleft hpositive (by rw [← hsquare]; exact hroot)⟩

end Pivots

/-- A symmetric matrix whose quadratic form is positive has a Cholesky factor: row by row, no pivot
fails to be positive. -/
theorem cholesky?_factors (hroots : Elementary.ExactRoots K) {rows : Array (Array K)}
    (ha : Definite (cell rows) rows.size) :
    ∃ lower, cholesky? rows = some lower ∧ lower.size = rows.size ∧ Factors (cell rows) lower := by
  have hprefix : ∀ k ≤ rows.size, ∃ lower,
      (rows.toList.take k).foldlM (fun above row => (factorRow? above row).map above.push) #[] =
        some lower ∧ lower.size = k ∧ Factors (cell rows) lower := by
    intro k hk
    induction k with
    | zero =>
      exact ⟨#[], rfl, rfl, fun i h => absurd h (Nat.not_lt_zero i),
        fun i h => absurd h (Nat.not_lt_zero i), fun i h => absurd h (Nat.not_lt_zero i)⟩
    | succ k ih =>
      obtain ⟨above, hfold, hsize, habove⟩ := ih (Nat.le_of_succ_le hk)
      obtain ⟨l, hl, hfactors⟩ := factorRow?_factors ha habove (by omega)
        (fun j _ => by rw [hsize, cell_eq hk]) hroots
      refine ⟨above.push l, ?_, by rw [Array.size_push, hsize], hfactors⟩
      rw [← List.take_append_getElem (h := hk), List.foldlM_append, hfold]
      simp [hl]
  obtain ⟨lower, hfold, hsize, hfactors⟩ := hprefix rows.size le_rfl
  refine ⟨lower, ?_, hsize, hfactors⟩
  rw [cholesky?, ← Array.foldlM_toList, ← hfold]
  exact congrArg _ (List.take_length).symm

/-- The solution of a system whose matrix has a factor. -/
theorem Factors.solves {a : Nat → Nat → K} {lower : Array (Array K)} (h : Factors a lower)
    (ha : Definite a lower.size) (b : Array K) {i : Nat} (hi : i < lower.size) :
    ∑ j ∈ range lower.size, a i j * (backward lower (forward lower b)).getD j 0 = b.getD i 0 := by
  let x : Nat → K := fun j => (backward lower (forward lower b)).getD j 0
  calc ∑ j ∈ range lower.size, a i j * x j
      = ∑ j ∈ range lower.size, ∑ t ∈ range lower.size,
          cell lower i t * (x j * cell lower j t) := by
        refine sum_congr rfl fun j hj => ?_
        rw [← h.product_eq ha le_rfl hi (mem_range.mp hj), sum_mul]
        exact sum_congr rfl fun t _ => by ring
    _ = ∑ t ∈ range lower.size, cell lower i t * (forward lower b).getD t 0 := by
        rw [sum_comm]
        refine sum_congr rfl fun t ht => ?_
        rw [← mul_sum, backward_solves h.staircase _ (mem_range.mp ht)]
    _ = b.getD i 0 := by
        rw [← forward_solves h.staircase b hi]
        exact sum_congr rfl fun t _ => mul_comm _ _

end Drafting.Linear

namespace Drafting

open Scalar Finset

/-- The rows of a matrix as arrays. -/
def rowArrays {β : Type} {n : Nat} (a : Vector (Vector β n) n) : Array (Array β) :=
  a.toArray.map (·.toArray)

theorem size_rowArrays {β : Type} {n : Nat} (a : Vector (Vector β n) n) :
    (rowArrays a).size = n := by
  simp [rowArrays]

section Positive

variable {K : Type} [Field K] {n : Nat}

theorem cell_rowArrays (a : Vector (Vector K n) n) (i j : Fin n) :
    Linear.cell (rowArrays a) i j = (a.get i).get j := by
  have hi : i.val < (rowArrays a).size := i.isLt.trans_eq (size_rowArrays a).symm
  have hrow : (rowArrays a)[i.val] = (a.get i).toArray := Array.getElem_map ..
  have hj : j.val < (a.get i).toArray.size := j.isLt.trans_eq (a.get i).size_toArray.symm
  rw [Linear.cell_eq hi, hrow, ← Array.getElem_eq_getD (h := hj)]
  rfl

/-- What a positive definite matrix is in terms of its rows. -/
theorem PositiveDefinite.definite [LinearOrder K] {a : Vector (Vector K n) n}
    (ha : PositiveDefinite a) :
    Linear.Definite (Linear.cell (rowArrays a)) (rowArrays a).size := by
  rw [size_rowArrays]
  refine ⟨fun i hi j hj => ?_, fun y hy => ?_⟩
  · have h := ha.symmetric ⟨i, hi⟩ ⟨j, hj⟩
    rwa [← cell_rowArrays, ← cell_rowArrays] at h
  · obtain ⟨i, hi, hyi⟩ := hy
    have h := ha.positive (fun i => y i) (Function.ne_iff.mpr ⟨⟨i, hi⟩, hyi⟩)
    simp only [← cell_rowArrays] at h
    simpa only [Finset.sum_range] using h

end Positive

variable {K : Type} [Field K] [LinearOrder K] [Elementary K]

/-- The solver that takes Cholesky factors. -/
def LinearSolver.byFactors : LinearSolver K := fun _ a b =>
  let x := (Linear.solvePositive? (rowArrays a) b.toArray).getD #[]
  Vector.ofFn fun i => x.getD i.val zero

/-- **With exact square roots a positive definite matrix has a Cholesky factor.** -/
theorem PositiveDefinite.cholesky?_isSome (hroots : Elementary.ExactRoots K) {n : Nat}
    {a : Vector (Vector K n) n} (ha : PositiveDefinite a) :
    (Linear.cholesky? (rowArrays a)).isSome = true := by
  obtain ⟨lower, hlower, -⟩ := Linear.cholesky?_factors hroots ha.definite
  rw [hlower]
  rfl

/-- With exact square roots the solver that takes Cholesky factors is exact. -/
theorem LinearSolver.byFactors_exact (hroots : Elementary.ExactRoots K) :
    (byFactors : LinearSolver K).Exact := by
  intro n a b ha i
  have hdefinite := ha.definite
  obtain ⟨lower, hlower, hsize, hfactors⟩ := Linear.cholesky?_factors hroots hdefinite
  have hlength : lower.size = n := hsize.trans (size_rowArrays a)
  rw [← hsize] at hdefinite
  have hsolves := hfactors.solves hdefinite b.toArray (i.isLt.trans_eq hlength.symm)
  rw [hlength, Finset.sum_range] at hsolves
  have hright : b.toArray.getD i 0 = b.get i := by
    rw [Array.getD_eq_getD_getElem?, Array.getElem?_eq_getElem (by simp)]
    rfl
  rw [← hright, ← hsolves]
  refine Finset.sum_congr rfl fun j _ => ?_
  rw [cell_rowArrays, byFactors, get_ofFn, Linear.solvePositive?, hlower, zero_eq]
  rfl

end Drafting
