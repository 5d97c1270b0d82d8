import Drafting.Proofs.PlaneGeometry
import Drafting.Proofs.RealArithmetic
import Drafting.System.Equation

/-!
Where residuals vanish. Over the real numbers, and as long as lines are longer than the equations
take for degenerate, the residuals of an equation are zero exactly where the geometry is as the
equation says: points and centers on straight lines, parallel and perpendicular directions, circles
that touch a line or another circle, and midpoints.
-/

namespace Drafting

open Scalar

variable {n k : Nat}

/-- Every guard is positive. -/
theorem decimal_pos (places : Nat) : (0 : ℝ) < decimal 1 places := by
  rw [show (decimal 1 places : ℝ) = (1 : ℤ) / 10 ^ places from rfl]
  positivity

namespace Placement

section

variable (x : Placement ℝ n k)

/-- Where a point stands in the plane. -/
noncomputable def site (i : Fin n) : Plane := (x.point i).inPlane

/-- The straight line through the ends of a line. -/
noncomputable def straight (l : LineRef n) : AffineSubspace ℝ Plane :=
  line[ℝ, x.site l.p1, x.site l.p2]

/-- The vector from the first to the second end of a line. -/
noncomputable def vector (l : LineRef n) : Plane := x.site l.p2 -ᵥ x.site l.p1

/-- The points of a circle. -/
noncomputable def round (c : CircleRef n k) : Set Plane :=
  Metric.sphere (x.site c.center) (x.radius c.radius)

/-- The distance between the centers of two circles. -/
noncomputable def centerDistance (c d : CircleRef n k) : ℝ :=
  dist (x.site c.center) (x.site d.center)

end

variable {x : Placement ℝ n k} {l m : LineRef n}

theorem magnitude_sub (a b : Point ℝ) :
    magnitude ⟨b.x - a.x, b.y - a.y⟩ = dist a.inPlane b.inPlane := by
  rw [Point.dist_inPlane, Point.square, sq, sq]
  rfl

theorem length_eq (x : Placement ℝ n k) (l : LineRef n) :
    x.length l = dist (x.site l.p1) (x.site l.p2) :=
  magnitude_sub _ _

theorem length_sq (x : Placement ℝ n k) (l : LineRef n) :
    x.length l ^ 2 = Point.square (x.point l.p1) (x.point l.p2) := by
  rw [length_eq, site, site, Point.dist_inPlane_sq]

theorem length_nonneg (x : Placement ℝ n k) (l : LineRef n) : 0 ≤ x.length l := by
  rw [length_eq]
  exact dist_nonneg

theorem length_pos_of_guard {places : Nat} (hl : decimal 1 places < x.length l ^ 2) :
    0 < x.length l :=
  (length_nonneg x l).lt_of_ne' (sq_pos_iff.mp ((decimal_pos places).trans hl))

theorem square_pos (hl : 0 < x.length l) : 0 < Point.square (x.point l.p1) (x.point l.p2) := by
  rw [← length_sq]
  exact pow_pos hl 2

theorem vector_eq (x : Placement ℝ n k) (l : LineRef n) :
    x.vector l = (x.direction l).inPlane := by
  ext i
  fin_cases i <;> rfl

theorem vector_ne_zero (hl : 0 < x.length l) : x.vector l ≠ 0 := by
  intro hzero
  rw [length_eq, vsub_eq_zero_iff_eq.mp hzero, dist_self] at hl
  exact lt_irrefl _ hl

theorem centerDistance_eq (x : Placement ℝ n k) (c d : CircleRef n k) :
    x.centerDistance c d = magnitude (x.centerVector c d) :=
  (magnitude_sub _ _).symm

/-- The equation of a line gives the side on which a point lies. -/
theorem lineValue_eq (x : Placement ℝ n k) (l : LineRef n) (p : Point ℝ) :
    x.lineValue l p = Point.side (x.point l.p1) (x.point l.p2) p := by
  unfold lineValue Point.side
  ring

theorem lineValue_eq_zero_iff (hl : 0 < x.length l) (i : Fin n) :
    x.lineValue l (x.point i) = 0 ↔ x.site i ∈ x.straight l := by
  rw [lineValue_eq, ← Point.mem_line_iff (square_pos hl)]
  rfl

/-- The distance of a point from a line that is long enough. -/
theorem lineDistance?_eq {guard : ℝ} (hl : guard < x.length l ^ 2) (p : Point ℝ) :
    x.lineDistance? l p guard =
      some (|x.lineValue l p| / x.length l) := by
  have hsquare : ∀ a b : Point ℝ, (b.x - a.x) * (b.x - a.x) + (b.y - a.y) * (b.y - a.y) =
      Point.square a b := fun a b => by rw [Point.square, sq, sq]
  have hvalue : ∀ a b : Point ℝ, (b.y - a.y) * p.x - (b.x - a.x) * p.y + b.x * a.y - b.y * a.x =
      -Point.side a b p := fun a b => by
    unfold Point.side
    ring
  have hlength := Point.dist_inPlane (x.point l.p1) (x.point l.p2)
  rw [length_sq, ← hsquare] at hl
  rw [length_eq, site, site, hlength, lineValue_eq, ← abs_neg, ← hvalue, ← hsquare]
  exact if_neg fun hle => hl.not_ge (of_decide_eq_true hle)

/-- The directions of two lines that are long enough. -/
theorem directions?_eq {guard : ℝ} (hl : guard < x.length l) (hm : guard < x.length m) :
    x.directions? l m guard = some (x.direction l, x.direction m, x.length l * x.length m) := by
  refine if_neg fun hle => ?_
  obtain hle | hle := Bool.or_eq_true_iff.mp hle
  · exact hl.not_ge (of_decide_eq_true hle)
  · exact hm.not_ge (of_decide_eq_true hle)

section

variable {c d : CircleRef n k} (hc : 0 < x.radius c.radius) (hd : 0 < x.radius d.radius)
include hc hd

theorem touch_iff : (∃! q, q ∈ x.round c ∧ q ∈ x.round d) ↔
    0 < x.centerDistance c d ∧ (x.centerDistance c d = x.radius c.radius + x.radius d.radius ∨
      x.centerDistance c d = |x.radius c.radius - x.radius d.radius|) :=
  Point.unique_on_circles_iff_dist hc hd

theorem abs_sub_lt_max : |x.radius c.radius - x.radius d.radius| <
    max (x.radius c.radius) (x.radius d.radius) :=
  abs_sub_lt_iff.mpr ⟨(sub_lt_self _ hd).trans_le (le_max_left _ _),
    (sub_lt_self _ hc).trans_le (le_max_right _ _)⟩

end

end Placement

namespace Equation

variable (o : Options ℝ) (x : Placement ℝ n k) (target : ℝ) (mode : Option Mode)

/-- Every residual of an equation is zero. -/
def Vanishes (e : Equation n k) : Prop := ∀ r ∈ e.residuals o x target mode, r = 0

variable {o x target mode} {l m : LineRef n}

theorem vanishes_iff_of_single {e : Equation n k} {r : ℝ}
    (h : e.residuals o x target mode = [r]) : e.Vanishes o x target mode ↔ r = 0 := by
  rw [Vanishes, h, List.forall_mem_singleton]

/-- An equation asks for a distance from a line that is long enough. -/
theorem vanishes_iff_of_lineDistance {e : Equation n k} {p : Point ℝ} {r : ℝ} {places : Nat}
    (hl : decimal 1 places < x.length l ^ 2)
    (h : e.residuals o x target mode =
      orZero ((x.lineDistance? l p (decimal 1 places)).map fun dist => dist - r)) :
    e.Vanishes o x target mode ↔ |x.lineValue l p| = r * x.length l := by
  rw [Placement.lineDistance?_eq hl] at h
  have hsingle : e.residuals o x target mode = [|x.lineValue l p| / x.length l - r] := h
  rw [vanishes_iff_of_single hsingle, sub_eq_zero,
    div_eq_iff (Placement.length_pos_of_guard hl).ne']

/-- An equation asks that a product of the directions of two lines that are long enough be zero. -/
theorem vanishes_iff_of_directions {e : Equation n k} (f : Point ℝ → Point ℝ → ℝ)
    (ho : o.angleStiffness ≠ 0) (hl : directionGuard < x.length l)
    (hm : directionGuard < x.length m)
    (h : e.residuals o x target mode =
      orZero ((x.directions? l m directionGuard).map fun (v, w, lengths) =>
        f v w / lengths * o.angleStiffness)) :
    e.Vanishes o x target mode ↔ f (x.direction l) (x.direction m) = 0 := by
  have hlengths := mul_pos ((decimal_pos _).trans hl) ((decimal_pos _).trans hm)
  rw [Placement.directions?_eq hl hm] at h
  have hsingle : e.residuals o x target mode =
      [f (x.direction l) (x.direction m) / (x.length l * x.length m) * o.angleStiffness] := h
  rw [vanishes_iff_of_single hsingle, mul_eq_zero, or_iff_left ho, div_eq_zero_iff,
    or_iff_left hlengths.ne']

theorem vanishes_pointOnLine_iff (hl : 0 < x.length l) (p : Fin n) :
    (pointOnLine p l).Vanishes o x target mode ↔ x.site p ∈ x.straight l :=
  (vanishes_iff_of_single rfl).trans (Placement.lineValue_eq_zero_iff hl p)

theorem vanishes_centerOnLine_iff (hl : 0 < x.length l) (c : CircleRef n k) :
    (centerOnLine c l).Vanishes o x target mode ↔ x.site c.center ∈ x.straight l :=
  (vanishes_iff_of_single rfl).trans (Placement.lineValue_eq_zero_iff hl c.center)

theorem vanishes_pointLineDistance_iff (hl : distanceGuard < x.length l ^ 2) (p : Fin n) :
    (pointLineDistance p l).Vanishes o x 0 mode ↔ x.site p ∈ x.straight l := by
  rw [vanishes_iff_of_lineDistance hl rfl, zero_mul, abs_eq_zero,
    Placement.lineValue_eq_zero_iff (Placement.length_pos_of_guard hl)]

theorem vanishes_parallel_iff (ho : o.angleStiffness ≠ 0) (hl : directionGuard < x.length l)
    (hm : directionGuard < x.length m) :
    (parallel l m).Vanishes o x target mode ↔
      ¬LinearIndependent ℝ ![x.vector l, x.vector m] := by
  have hvector := Placement.vector_ne_zero ((decimal_pos _).trans hl)
  rw [Placement.vector_eq] at hvector
  rw [Placement.vector_eq, Placement.vector_eq, Point.dependent_iff hvector]
  exact vanishes_iff_of_directions (fun v w => v.x * w.y - v.y * w.x) ho hl hm rfl

theorem vanishes_perpendicular_iff (ho : o.angleStiffness ≠ 0) (hl : directionGuard < x.length l)
    (hm : directionGuard < x.length m) :
    (perpendicular l m).Vanishes o x target mode ↔ inner ℝ (x.vector l) (x.vector m) = 0 := by
  rw [Placement.vector_eq, Placement.vector_eq, Point.inner_inPlane]
  exact vanishes_iff_of_directions (fun v w => v.x * w.x + v.y * w.y) ho hl hm rfl

theorem vanishes_tangentLine_iff (hl : tangentGuard < x.length l ^ 2) {c : CircleRef n k}
    (hc : 0 < x.radius c.radius) :
    (tangentLine l c).Vanishes o x target mode ↔ ∃! q, q ∈ x.straight l ∧ q ∈ x.round c := by
  have hlength := Placement.length_pos_of_guard hl
  rw [vanishes_iff_of_lineDistance hl rfl, ← sq_eq_sq₀ (abs_nonneg _) (mul_pos hc hlength).le,
    sq_abs, mul_pow, Placement.lineValue_eq, Placement.length_sq]
  exact (Point.unique_on_line_and_circle_iff (Placement.square_pos hlength) hc.le).symm

section

variable {c d : CircleRef n k} (hc : 0 < x.radius c.radius) (hd : 0 < x.radius d.radius)
include hc hd

/-- Circles touch from outside if they have one common point and no center lies in the other circle.
-/
theorem vanishes_tangentCircles_external_iff :
    (tangentCircles c d).Vanishes o x target (some .external) ↔
      (∃! q, q ∈ x.round c ∧ q ∈ x.round d) ∧ x.radius c.radius ≤ x.centerDistance c d ∧
        x.radius d.radius ≤ x.centerDistance c d := by
  have hresidual : (tangentCircles c d).residuals o x target (some .external) =
      [x.centerDistance c d - (x.radius c.radius + x.radius d.radius)] := by
    rw [residuals, Placement.centerDistance_eq]
    rfl
  rw [vanishes_iff_of_single hresidual, sub_eq_zero, Placement.touch_iff hc hd]
  constructor
  · intro h
    rw [h]
    exact ⟨⟨add_pos hc hd, .inl rfl⟩, le_add_of_nonneg_right hd.le, le_add_of_nonneg_left hc.le⟩
  · rintro ⟨⟨-, houter | hinner⟩, hfirst, hsecond⟩
    · exact houter
    · have hless := Placement.abs_sub_lt_max hc hd
      rw [← hinner] at hless
      exact absurd (max_le hfirst hsecond) hless.not_ge

theorem vanishes_tangentCircles_internal_iff (hne : x.radius c.radius ≠ x.radius d.radius) :
    (tangentCircles c d).Vanishes o x target (some .internal) ↔
      (∃! q, q ∈ x.round c ∧ q ∈ x.round d) ∧
        x.centerDistance c d < max (x.radius c.radius) (x.radius d.radius) := by
  have hresidual : (tangentCircles c d).residuals o x target (some .internal) =
      [x.centerDistance c d - |x.radius c.radius - x.radius d.radius|] := by
    rw [residuals, Placement.centerDistance_eq]
    rfl
  rw [vanishes_iff_of_single hresidual, sub_eq_zero, Placement.touch_iff hc hd]
  constructor
  · intro h
    rw [h]
    exact ⟨⟨abs_pos.mpr (sub_ne_zero.mpr hne), .inr rfl⟩, Placement.abs_sub_lt_max hc hd⟩
  · rintro ⟨⟨-, houter | hinner⟩, hless⟩
    · rw [houter] at hless
      exact absurd (max_lt (lt_add_of_pos_right _ hd) (lt_add_of_pos_left _ hc)) hless.not_gt
    · exact hinner

end

/-- A point is in the middle if it lies on the line, equally far from both ends. -/
theorem vanishes_midpoint_iff (p : Fin n) :
    (midpoint p l).Vanishes o x target mode ↔ x.site p ∈ x.straight l ∧
      dist (x.site p) (x.site l.p1) = dist (x.site p) (x.site l.p2) := by
  have hhalf : ∀ a b : ℝ, (a + b) / two = a + 1 / 2 * (b - a) := by
    intro a b
    rw [show (two : ℝ) = (2 : ℤ) / 10 ^ 0 from rfl]
    push_cast
    ring
  have hresidual : (midpoint p l).residuals o x target mode =
      [(x.point p).x - (Point.partway (x.point l.p1) (x.point l.p2) (1 / 2)).x,
        (x.point p).y - (Point.partway (x.point l.p1) (x.point l.p2) (1 / 2)).y] := by
    rw [Point.partway, ← hhalf, ← hhalf]
    rfl
  refine Iff.trans ?_ Point.partway_half_iff
  rw [Vanishes, hresidual, List.forall_mem_cons, List.forall_mem_singleton, sub_eq_zero,
    sub_eq_zero]
  constructor
  · rintro ⟨hx, hy⟩
    exact congrArg₂ Point.mk hx.symm hy.symm
  · intro h
    rw [h]
    exact ⟨rfl, rfl⟩

/-- **Where residuals vanish.** Over the real numbers, with positive radii and lines that are not
taken for degenerate, the residuals of an equation between points, lines and circles are zero
exactly where the geometry is as it says: a point or a center lies on a straight line, which both
the value of the line and the distance from it tell; two directions are linearly dependent or
orthogonal; a circle and a straight line have one common point; two circles have one common point
and lie next to each other or one in the other; a point is on a line and equally far from its ends.
-/
theorem residuals_vanish_exactly (o : Options ℝ) (ho : o.angleStiffness ≠ 0)
    (x : Placement ℝ n k) (hx : ∀ i, 0 < x.radius i) (target : ℝ) (mode : Option Mode) :
    (∀ l, 0 < x.length l →
      (∀ p, (pointOnLine p l).Vanishes o x target mode ↔ x.site p ∈ x.straight l) ∧
      (∀ c, (centerOnLine c l).Vanishes o x target mode ↔ x.site c.center ∈ x.straight l)) ∧
    (∀ l, distanceGuard < x.length l ^ 2 → ∀ p,
      (pointLineDistance p l).Vanishes o x 0 mode ↔ x.site p ∈ x.straight l) ∧
    (∀ l m, directionGuard < x.length l → directionGuard < x.length m →
      ((parallel l m).Vanishes o x target mode ↔
        ¬LinearIndependent ℝ ![x.vector l, x.vector m]) ∧
      ((perpendicular l m).Vanishes o x target mode ↔ inner ℝ (x.vector l) (x.vector m) = 0)) ∧
    (∀ l c, tangentGuard < x.length l ^ 2 →
      ((tangentLine l c).Vanishes o x target mode ↔ ∃! q, q ∈ x.straight l ∧ q ∈ x.round c)) ∧
    (∀ c d,
      ((tangentCircles c d).Vanishes o x target (some .external) ↔
        (∃! q, q ∈ x.round c ∧ q ∈ x.round d) ∧ x.radius c.radius ≤ x.centerDistance c d ∧
          x.radius d.radius ≤ x.centerDistance c d) ∧
      (x.radius c.radius ≠ x.radius d.radius →
        ((tangentCircles c d).Vanishes o x target (some .internal) ↔
          (∃! q, q ∈ x.round c ∧ q ∈ x.round d) ∧
            x.centerDistance c d < max (x.radius c.radius) (x.radius d.radius)))) ∧
    (∀ p l, (midpoint p l).Vanishes o x target mode ↔ x.site p ∈ x.straight l ∧
      dist (x.site p) (x.site l.p1) = dist (x.site p) (x.site l.p2)) := by
  refine ⟨fun l hl => ⟨vanishes_pointOnLine_iff hl, vanishes_centerOnLine_iff hl⟩,
    fun l hl => vanishes_pointLineDistance_iff hl,
    fun l m hl hm => ⟨vanishes_parallel_iff ho hl hm, vanishes_perpendicular_iff ho hl hm⟩,
    fun l c hl => vanishes_tangentLine_iff hl (hx c.radius), fun c d => ⟨?_, ?_⟩,
    fun p l => vanishes_midpoint_iff p⟩
  · exact vanishes_tangentCircles_external_iff (hx c.radius) (hx d.radius)
  · exact vanishes_tangentCircles_internal_iff (hx c.radius) (hx d.radius)

section Touching

/-- Two lines of length one at a right angle, and two circles of radius one on both sides of the
first line that touch it at its start. -/
def touching : Placement ℝ 4 2 where
  point := ![⟨0, 0⟩, ⟨1, 0⟩, ⟨0, 1⟩, ⟨0, -1⟩]
  radius _ := 1

theorem residuals_vanish_exactly_touching :
    (perpendicular ⟨0, 1⟩ ⟨0, 2⟩).Vanishes .standard touching 0 none ∧
      (tangentLine ⟨0, 1⟩ ⟨2, 0⟩).Vanishes .standard touching 0 none ∧
      (tangentCircles ⟨2, 0⟩ ⟨3, 1⟩).Vanishes .standard touching 0 (some .external) := by
  have ho : (Options.standard : Options ℝ).angleStiffness ≠ 0 := by
    rw [show (Options.standard : Options ℝ).angleStiffness = (100 : ℤ) / 10 ^ 0 from rfl]
    norm_num
  have hguard : (decimal 1 7 : ℝ) < 1 := by
    rw [show (decimal 1 7 : ℝ) = (1 : ℤ) / 10 ^ 7 from rfl]
    norm_num
  have hdist : ∀ {a b : Point ℝ} {δ : ℝ}, 0 ≤ δ → (b.x - a.x) ^ 2 + (b.y - a.y) ^ 2 = δ ^ 2 →
      dist a.inPlane b.inPlane = δ := fun hδ h => by
    rw [Point.dist_inPlane, Point.square, h, Real.sqrt_sq hδ]
  have hfirst : touching.length ⟨0, 1⟩ = 1 := by
    refine (Placement.length_eq _ _).trans (hdist zero_le_one ?_)
    change (1 - 0 : ℝ) ^ 2 + (0 - 0) ^ 2 = 1 ^ 2
    norm_num
  have hsecond : touching.length ⟨0, 2⟩ = 1 := by
    refine (Placement.length_eq _ _).trans (hdist zero_le_one ?_)
    change (0 - 0 : ℝ) ^ 2 + (1 - 0) ^ 2 = 1 ^ 2
    norm_num
  have hcenters : touching.centerDistance ⟨2, 0⟩ ⟨3, 1⟩ = 1 + 1 := by
    refine hdist (add_nonneg zero_le_one zero_le_one) ?_
    change (0 - 0 : ℝ) ^ 2 + (-1 - 1) ^ 2 = (1 + 1) ^ 2
    norm_num
  obtain ⟨-, -, hdirections, hline, hcircles, -⟩ :=
    residuals_vanish_exactly .standard ho touching (fun _ => one_pos) 0 none
  refine ⟨(hdirections _ _ ?_ ?_).2.mpr ?_, (hline _ _ ?_).mpr ?_,
    (hcircles _ _).1.mpr ⟨?_, ?_, ?_⟩⟩
  · rwa [hfirst]
  · rwa [hsecond]
  · rw [Placement.vector_eq, Placement.vector_eq, Point.inner_inPlane]
    change (1 - 0 : ℝ) * (0 - 0) + (0 - 0) * (1 - 0) = 0
    norm_num
  · rwa [hfirst, one_pow]
  · refine (Point.unique_on_line_and_circle_iff (Placement.square_pos ?_) zero_le_one).mpr ?_
    · rw [hfirst]
      exact one_pos
    · change ((1 - 0 : ℝ) * (1 - 0) - (0 - 0) * (0 - 0)) ^ 2 =
        1 ^ 2 * ((1 - 0) ^ 2 + (0 - 0) ^ 2)
      norm_num
  · refine (Placement.touch_iff one_pos one_pos).mpr ⟨?_, .inl hcenters⟩
    rw [hcenters]
    exact add_pos one_pos one_pos
  · rw [hcenters]
    exact le_add_of_nonneg_right zero_le_one
  · rw [hcenters]
    exact le_add_of_nonneg_left zero_le_one

end Touching

end Equation

end Drafting
