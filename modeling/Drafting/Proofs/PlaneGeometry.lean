import Mathlib.Algebra.QuadraticDiscriminant
import Mathlib.Analysis.InnerProductSpace.PiL2
import Mathlib.LinearAlgebra.AffineSpace.AffineSubspace.Basic
import Mathlib.Tactic.LinearCombination
import Mathlib.Tactic.Linarith
import Drafting.Geometry.Element

/-!
Points of the Euclidean plane by their coordinates. What the formulas of a drawing say in
coordinates is said here of the plane itself: when a point lies on a straight line, when it is the
middle of its ends, when two vectors are linearly dependent, and when a line and a circle, or two
circles, have exactly one common point.
-/

namespace Drafting

/-- The plane of a drawing, with its distances and angles. -/
abbrev Plane : Type := EuclideanSpace ℝ (Fin 2)

namespace Point

/-- A point by its coordinates. -/
noncomputable def inPlane (p : Point ℝ) : Plane := !₂[p.x, p.y]

theorem inPlane_injective : Function.Injective inPlane := fun _ _ h =>
  congrArg₂ mk (congrArg (· 0) h) (congrArg (· 1) h)

/-- Every point of the plane has two coordinates. -/
theorem inPlane_surjective : Function.Surjective inPlane := by
  refine fun q => ⟨⟨q 0, q 1⟩, ?_⟩
  ext i
  fin_cases i <;> rfl

variable {a b c p : Point ℝ}

theorem inner_inPlane (v w : Point ℝ) : inner ℝ v.inPlane w.inPlane = v.x * w.x + v.y * w.y := by
  simp [inPlane, PiLp.inner_apply, Fin.sum_univ_two, mul_comm]

/-- The square of the distance of two points. -/
def square (a b : Point ℝ) : ℝ := (b.x - a.x) ^ 2 + (b.y - a.y) ^ 2

theorem square_nonneg (a b : Point ℝ) : 0 ≤ square a b :=
  add_nonneg (sq_nonneg _) (sq_nonneg _)

theorem differences_of_square_eq_zero (h : square a b = 0) : b.x - a.x = 0 ∧ b.y - a.y = 0 := by
  obtain ⟨hx, hy⟩ := (add_eq_zero_iff_of_nonneg (sq_nonneg _) (sq_nonneg _)).mp h
  exact ⟨pow_eq_zero_iff two_ne_zero |>.mp hx, pow_eq_zero_iff two_ne_zero |>.mp hy⟩

theorem dist_inPlane (a b : Point ℝ) : dist a.inPlane b.inPlane = √(square a b) := by
  rw [dist_comm, EuclideanSpace.dist_eq, Fin.sum_univ_two, Real.dist_eq, Real.dist_eq, sq_abs,
    sq_abs]
  rfl

theorem dist_inPlane_sq (a b : Point ℝ) : dist a.inPlane b.inPlane ^ 2 = square a b := by
  rw [dist_inPlane, Real.sq_sqrt (square_nonneg a b)]

theorem mem_sphere_iff {r : ℝ} (hr : 0 ≤ r) :
    p.inPlane ∈ Metric.sphere c.inPlane r ↔ square c p = r ^ 2 := by
  rw [Metric.mem_sphere, dist_comm, dist_inPlane, Real.sqrt_eq_iff_eq_sq (square_nonneg c p) hr]

/-! ## A point and a line -/

/-- The point that divides the way from `a` to `b` in a ratio. -/
def partway (a b : Point ℝ) (t : ℝ) : Point ℝ :=
  ⟨a.x + t * (b.x - a.x), a.y + t * (b.y - a.y)⟩

theorem lineMap_inPlane (a b : Point ℝ) (t : ℝ) :
    AffineMap.lineMap a.inPlane b.inPlane t = (partway a b t).inPlane := by
  have hcoordinate : ∀ s t' : ℝ, (1 - t) * s + t * t' = s + t * (t' - s) := fun s t' => by ring
  rw [AffineMap.lineMap_apply_module]
  ext i
  fin_cases i
  · exact hcoordinate a.x b.x
  · exact hcoordinate a.y b.y

theorem mem_line_iff_exists :
    p.inPlane ∈ line[ℝ, a.inPlane, b.inPlane] ↔ ∃ t, partway a b t = p := by
  rw [mem_affineSpan_pair_iff_exists_lineMap_eq]
  refine exists_congr fun t => ?_
  rw [lineMap_inPlane]
  exact inPlane_injective.eq_iff

/-- On which side of the line from `a` to `b` a point lies, and how far from it in units of the
length of the line. -/
def side (a b p : Point ℝ) : ℝ := (b.x - a.x) * (p.y - a.y) - (b.y - a.y) * (p.x - a.x)

/-- How far along the line from `a` to `b` a point lies, in units of the length of the line. -/
def along (a b p : Point ℝ) : ℝ := (b.x - a.x) * (p.x - a.x) + (b.y - a.y) * (p.y - a.y)

/-- What lies along a line and what lies across it make up the whole. -/
theorem along_sq_add_side_sq (a b p : Point ℝ) :
    along a b p ^ 2 + side a b p ^ 2 = square a b * square a p := by
  unfold along side square
  ring

theorem square_start_partway (a b : Point ℝ) (t : ℝ) :
    square a (partway a b t) = t ^ 2 * square a b := by
  unfold square partway
  ring

theorem square_end_partway (a b : Point ℝ) (t : ℝ) :
    square b (partway a b t) = (1 - t) ^ 2 * square a b := by
  unfold square partway
  ring

theorem square_partway (a b c : Point ℝ) (t : ℝ) : square c (partway a b t) =
    square a b * (t * t) + -2 * along a b c * t + square a c := by
  unfold square partway along
  ring

/-- A point on a line is where it lies along the line. -/
theorem partway_of_side_eq_zero (hab : 0 < square a b) (hside : side a b p = 0) :
    partway a b (along a b p / square a b) = p := by
  have hx : a.x + along a b p / square a b * (b.x - a.x) = p.x := by
    field_simp
    unfold side along square at *
    linear_combination (b.y - a.y) * hside
  have hy : a.y + along a b p / square a b * (b.y - a.y) = p.y := by
    field_simp
    unfold side along square at *
    linear_combination (a.x - b.x) * hside
  rw [partway, hx, hy]

theorem mem_line_iff (hab : 0 < square a b) :
    p.inPlane ∈ line[ℝ, a.inPlane, b.inPlane] ↔ side a b p = 0 := by
  rw [mem_line_iff_exists]
  constructor
  · rintro ⟨t, rfl⟩
    unfold side partway
    ring
  · exact fun hside => ⟨_, partway_of_side_eq_zero hab hside⟩

/-- The middle of a line is the point on it that is equally far from both ends. -/
theorem partway_half_iff : partway a b (1 / 2) = p ↔
    p.inPlane ∈ line[ℝ, a.inPlane, b.inPlane] ∧
      dist p.inPlane a.inPlane = dist p.inPlane b.inPlane := by
  have hdistances : dist p.inPlane a.inPlane = dist p.inPlane b.inPlane ↔
      square a p = square b p := by
    rw [dist_comm _ a.inPlane, dist_comm _ b.inPlane, ← dist_inPlane_sq, ← dist_inPlane_sq,
      sq_eq_sq₀ dist_nonneg dist_nonneg]
  rw [mem_line_iff_exists, hdistances]
  constructor
  · rintro rfl
    refine ⟨⟨_, rfl⟩, ?_⟩
    rw [square_start_partway, square_end_partway]
    ring
  · rintro ⟨⟨t, rfl⟩, hsquares⟩
    rw [square_start_partway, square_end_partway] at hsquares
    have hzero : (2 * t - 1) * square a b = 0 := by linear_combination hsquares
    obtain ht | hpoint := mul_eq_zero.mp hzero
    · rw [show t = 1 / 2 by linarith]
    · -- both ends are the same point, and so is every point between them
      obtain ⟨hx, hy⟩ := differences_of_square_eq_zero hpoint
      rw [partway, partway, hx, hy, mul_zero, mul_zero]

/-- Two vectors are linearly dependent if the second ends on the line of the first. -/
theorem dependent_iff {v w : Point ℝ} (hv : v.inPlane ≠ 0) :
    ¬LinearIndependent ℝ ![v.inPlane, w.inPlane] ↔ v.x * w.y - v.y * w.x = 0 := by
  have horigin : inPlane ⟨0, 0⟩ = 0 := by
    ext i
    fin_cases i <;> rfl
  have hlength : 0 < square ⟨0, 0⟩ v := by
    refine (square_nonneg _ v).lt_of_ne fun hzero => hv ?_
    rw [← horigin, ← dist_eq_zero, dist_comm, dist_inPlane, ← hzero, Real.sqrt_zero]
  have hmultiple : ∀ t : ℝ, t • v.inPlane = w.inPlane ↔ partway ⟨0, 0⟩ v t = w := by
    intro t
    rw [← inPlane_injective.eq_iff, ← lineMap_inPlane, horigin, AffineMap.lineMap_apply_module,
      smul_zero, zero_add]
  rw [LinearIndependent.pair_iff' hv, not_forall_not, exists_congr hmultiple, ← mem_line_iff_exists,
    mem_line_iff hlength, side, sub_zero, sub_zero, sub_zero, sub_zero]

theorem partway_injective (hab : 0 < square a b) : Function.Injective (partway a b) := by
  intro t t' h
  obtain ⟨hx, hy⟩ := mk.inj h
  have hzero : (t - t') ^ 2 * square a b = 0 := by
    unfold square
    linear_combination (t - t') * (b.x - a.x) * hx + (t - t') * (b.y - a.y) * hy
  have hdifference := (mul_eq_zero.mp hzero).resolve_right hab.ne'
  exact sub_eq_zero.mp (pow_eq_zero_iff two_ne_zero |>.mp hdifference)

/-- The common points of a line and a set are as many as the ratios at which the line meets it. -/
theorem unique_on_line_iff (hab : 0 < square a b) (s : Set Plane) :
    (∃! q, q ∈ line[ℝ, a.inPlane, b.inPlane] ∧ q ∈ s) ↔ ∃! t, (partway a b t).inPlane ∈ s := by
  constructor
  · rintro ⟨q, ⟨hline, hs⟩, hunique⟩
    obtain ⟨p, rfl⟩ := inPlane_surjective q
    obtain ⟨t, rfl⟩ := mem_line_iff_exists.mp hline
    refine ⟨t, hs, fun t' ht' => partway_injective hab (inPlane_injective ?_)⟩
    exact hunique _ ⟨mem_line_iff_exists.mpr ⟨t', rfl⟩, ht'⟩
  · rintro ⟨t, ht, hunique⟩
    refine ⟨_, ⟨mem_line_iff_exists.mpr ⟨t, rfl⟩, ht⟩, ?_⟩
    rintro q ⟨hline, hs⟩
    obtain ⟨p, rfl⟩ := inPlane_surjective q
    obtain ⟨t', rfl⟩ := mem_line_iff_exists.mp hline
    rw [hunique t' hs]

/-- A line and a circle have one common point if the distance of the center is the radius. -/
theorem unique_on_line_and_circle_iff (hab : 0 < square a b) {r : ℝ} (hr : 0 ≤ r) :
    (∃! q, q ∈ line[ℝ, a.inPlane, b.inPlane] ∧ q ∈ Metric.sphere c.inPlane r) ↔
      side a b c ^ 2 = r ^ 2 * square a b := by
  have hquadratic : ∀ t, (partway a b t).inPlane ∈ Metric.sphere c.inPlane r ↔
      square a b * (t * t) + -2 * along a b c * t + (square a c - r ^ 2) = 0 := by
    intro t
    rw [mem_sphere_iff hr, ← add_sub_assoc, ← square_partway, sub_eq_zero]
  rw [unique_on_line_iff hab, existsUnique_congr hquadratic, ← discrim_eq_zero_iff hab.ne', discrim]
  have hparts := along_sq_add_side_sq a b c
  constructor
  · intro h
    linear_combination hparts - h / 4
  · intro h
    linear_combination 4 * hparts - 4 * h

/-! ## Two circles -/

/-- The distance of a point from the end of a line by that from its start. -/
theorem square_eq (a b p : Point ℝ) :
    square b p = square a p - 2 * along a b p + square a b := by
  unfold square along
  ring

/-- The point that is mirrored at the line from `a` to `b`. -/
noncomputable def mirrored (a b p : Point ℝ) : Point ℝ :=
  ⟨2 * (partway a b (along a b p / square a b)).x - p.x,
    2 * (partway a b (along a b p / square a b)).y - p.y⟩

/-- A point that is its own mirror image lies on the line. -/
theorem exists_partway_of_mirrored (h : mirrored a b p = p) : ∃ u, partway a b u = p := by
  obtain ⟨hx, hy⟩ := mk.inj h
  have hx' : (partway a b (along a b p / square a b)).x = p.x := by linarith
  have hy' : (partway a b (along a b p / square a b)).y = p.y := by linarith
  exact ⟨_, congrArg₂ mk hx' hy'⟩

theorem along_div_mul_square (a b p : Point ℝ) :
    along a b p / square a b * square a b = along a b p := by
  refine div_mul_cancel_of_imp fun hzero => ?_
  obtain ⟨hx, hy⟩ := differences_of_square_eq_zero hzero
  rw [along, hx, hy, zero_mul, zero_mul, add_zero]

/-- Mirroring keeps the distances from both ends of the line. -/
theorem square_mirrored (a b p : Point ℝ) :
    square a (mirrored a b p) = square a p ∧ square b (mirrored a b p) = square b p := by
  have hratio := along_div_mul_square a b p
  generalize hu : along a b p / square a b = u at hratio
  have hstart : square a (mirrored a b p) = square a p := by
    rw [mirrored, hu]
    unfold square partway along at *
    linear_combination 4 * u * hratio
  refine ⟨hstart, ?_⟩
  rw [square_eq a b, square_eq a b p, hstart, mirrored, hu]
  unfold square partway along at *
  linear_combination -4 * hratio

section Circles

variable {r s : ℝ}

theorem mem_spheres_iff (hr : 0 ≤ r) (hs : 0 ≤ s) :
    (p.inPlane ∈ Metric.sphere a.inPlane r ∧ p.inPlane ∈ Metric.sphere b.inPlane s) ↔
      square a p = r ^ 2 ∧ square b p = s ^ 2 :=
  and_congr (mem_sphere_iff hr) (mem_sphere_iff hs)

/-- The only common point of two circles is its own mirror image. -/
theorem exists_partway_of_unique (ha : square a p = r ^ 2) (hb : square b p = s ^ 2)
    (hunique : ∀ p', square a p' = r ^ 2 → square b p' = s ^ 2 → p' = p) :
    ∃ u, partway a b u = p := by
  obtain ⟨hstart, hend⟩ := square_mirrored a b p
  exact exists_partway_of_mirrored (hunique _ (hstart.trans ha) (hend.trans hb))

/-- Where the triangle of the centers and a common point is flat, every common point lies on the
line of the centers. -/
theorem partway_of_flat (hab : 0 < square a b) {u : ℝ} (hlength : u ^ 2 * square a b = r ^ 2)
    (hratio : 2 * (u * square a b) = square a b + r ^ 2 - s ^ 2) (ha : square a p = r ^ 2)
    (hb : square b p = s ^ 2) : partway a b u = p := by
  have halong : along a b p = u * square a b := by
    linear_combination (square_eq a b p - hb + ha - hratio) / 2
  -- nothing is left to lie across the line
  have hside : side a b p ^ 2 = 0 := by
    have hparts := along_sq_add_side_sq a b p
    rw [halong, ha] at hparts
    linear_combination hparts - square a b * hlength
  rw [← partway_of_side_eq_zero hab (pow_eq_zero_iff two_ne_zero |>.mp hside), halong,
    mul_div_cancel_right₀ _ hab.ne']

/-- Two circles have one common point if their centers are apart and the triangle of the centers and
a common point is flat. -/
theorem unique_on_circles_iff (hr : 0 < r) (hs : 0 ≤ s) :
    (∃! q, q ∈ Metric.sphere a.inPlane r ∧ q ∈ Metric.sphere b.inPlane s) ↔
      0 < square a b ∧ (square a b + r ^ 2 - s ^ 2) ^ 2 = 4 * r ^ 2 * square a b := by
  constructor
  · rintro ⟨q, hq, hunique⟩
    obtain ⟨p, rfl⟩ := inPlane_surjective q
    obtain ⟨ha, hb⟩ := (mem_spheres_iff hr.le hs).mp hq
    obtain ⟨u, rfl⟩ := exists_partway_of_unique ha hb fun p' ha' hb' =>
      inPlane_injective (hunique _ ((mem_spheres_iff hr.le hs).mpr ⟨ha', hb'⟩))
    rw [square_start_partway] at ha
    rw [square_end_partway] at hb
    refine ⟨(square_nonneg a b).lt_of_ne fun hzero => ?_, ?_⟩
    · rw [← hzero, mul_zero] at ha
      exact (pow_pos hr 2).ne ha
    · rw [← ha, ← hb]
      ring
  · rintro ⟨hab, hflat⟩
    obtain ⟨u, hratio⟩ : ∃ u, 2 * (u * square a b) = square a b + r ^ 2 - s ^ 2 :=
      ⟨(square a b + r ^ 2 - s ^ 2) / (2 * square a b), by field_simp⟩
    have hlength : u ^ 2 * square a b = r ^ 2 := by
      refine mul_left_cancel₀ (mul_ne_zero four_ne_zero hab.ne') ?_
      linear_combination hflat + (2 * (u * square a b) + (square a b + r ^ 2 - s ^ 2)) * hratio
    refine ⟨(partway a b u).inPlane, (mem_spheres_iff hr.le hs).mpr ⟨?_, ?_⟩, ?_⟩
    · rw [square_start_partway, hlength]
    · rw [square_end_partway]
      linear_combination hlength - hratio
    · rintro q hq
      obtain ⟨p, rfl⟩ := inPlane_surjective q
      obtain ⟨ha, hb⟩ := (mem_spheres_iff hr.le hs).mp hq
      rw [partway_of_flat hab hlength hratio ha hb]

/-- Circles have one common point if they touch, from outside or from inside. -/
theorem unique_on_circles_iff_dist (hr : 0 < r) (hs : 0 < s) :
    (∃! q, q ∈ Metric.sphere a.inPlane r ∧ q ∈ Metric.sphere b.inPlane s) ↔
      0 < dist a.inPlane b.inPlane ∧ (dist a.inPlane b.inPlane = r + s ∨
        dist a.inPlane b.inPlane = |r - s|) := by
  have hcenters : 0 < square a b ↔ 0 < dist a.inPlane b.inPlane := by
    rw [dist_inPlane, Real.sqrt_pos]
  rw [unique_on_circles_iff hr hs.le, hcenters, ← dist_inPlane_sq]
  refine and_congr_right fun _ => ?_
  have hfactors : (dist a.inPlane b.inPlane ^ 2 + r ^ 2 - s ^ 2) ^ 2 -
      4 * r ^ 2 * dist a.inPlane b.inPlane ^ 2 =
        (dist a.inPlane b.inPlane ^ 2 - (r + s) ^ 2) *
          (dist a.inPlane b.inPlane ^ 2 - (r - s) ^ 2) := by
    ring
  rw [← sub_eq_zero, hfactors, mul_eq_zero, sub_eq_zero, sub_eq_zero, ← sq_abs (r - s),
    sq_eq_sq₀ dist_nonneg (add_pos hr hs).le, sq_eq_sq₀ dist_nonneg (abs_nonneg _)]

end Circles

end Point

end Drafting
