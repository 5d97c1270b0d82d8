import Mathlib.Data.List.Permutation
import Drafting.Proofs.Magnitudes
import Drafting.Proofs.Patterns

/-!
Equations between two things, taken in either order. The distance of two points or centers, the
angle of two lines and how two circles touch do not depend on which of the two comes first, and a
difference only changes its sign. So an equation and the one with its two things exchanged have the
same mode everywhere, and residuals of the same sizes one by one; with a target that is equal as a
number, too. Rounding changes nothing about this.

The patterns of a kind look at numbers of things. On the same things in another order they give the
same equation or the one with its things exchanged, except where a pattern fits more things than its
equation has: the circle of a radius and the two points of a distance are taken from the front.
-/

namespace Drafting

open Scalar

variable {n k : Nat}

theorem abs_sub_comm (a b : Float) : Scalar.abs (a - b) = Scalar.abs (b - a) :=
  (SameSize.sub_swap a b).abs_eq

/-! ## Lengths and directions in either order -/

namespace Placement

theorem magnitude_congr {v w : Point Float} (hx : SameSize v.x w.x) (hy : SameSize v.y w.y) :
    magnitude v = magnitude w := by
  unfold magnitude
  rw [hx.mul_self, hy.mul_self]

theorem magnitude_centerVector_comm (x : Placement Float n k) (c d : CircleRef n k) :
    magnitude (x.centerVector c d) = magnitude (x.centerVector d c) :=
  magnitude_congr (.sub_swap _ _) (.sub_swap _ _)

theorem directions?_comm (x : Placement Float n k) (l m : LineRef n) (guard : Float) :
    x.directions? m l guard =
      (x.directions? l m guard).map fun (v, w, lengths) => (w, v, lengths) := by
  unfold directions?
  dsimp only
  rw [Bool.or_comm, float_mul_comm]
  split <;> rfl

end Placement

namespace Equation

/-! ## Exchanging -/

/-- Two equations are the same, or one comes from the other by exchanging the two things that it is
about. -/
inductive Turned : Equation n k → Equation n k → Prop where
  | same (e : Equation n k) : Turned e e
  | levelPoints (p q : Fin n) : Turned (.levelPoints p q) (.levelPoints q p)
  | plumbPoints (p q : Fin n) : Turned (.plumbPoints p q) (.plumbPoints q p)
  | samePoint (p q : Fin n) : Turned (.samePoint p q) (.samePoint q p)
  | sameCenter (c d : CircleRef n k) : Turned (.sameCenter c d) (.sameCenter d c)
  | circleDistance (c d : CircleRef n k) : Turned (.circleDistance c d) (.circleDistance d c)
  | pointDistance (p q : Fin n) : Turned (.pointDistance p q) (.pointDistance q p)
  | angleBetween (l m : LineRef n) : Turned (.angleBetween l m) (.angleBetween m l)
  | parallel (l m : LineRef n) : Turned (.parallel l m) (.parallel m l)
  | perpendicular (l m : LineRef n) : Turned (.perpendicular l m) (.perpendicular m l)
  | equalLength (l m : LineRef n) : Turned (.equalLength l m) (.equalLength m l)
  | tangentCircles (c d : CircleRef n k) : Turned (.tangentCircles c d) (.tangentCircles d c)

variable {e e' : Equation n k}

theorem distanceMode_comm (x : Placement Float n k) (c d : CircleRef n k) (target : Float) :
    distanceMode x c d target = distanceMode x d c target := by
  unfold distanceMode
  dsimp only
  rw [x.magnitude_centerVector_comm c d, float_add_comm (x.radius c.radius),
    abs_sub_comm (x.radius c.radius)]

theorem tangentMode_comm (x : Placement Float n k) (c d : CircleRef n k) :
    tangentMode x c d = tangentMode x d c := by
  unfold tangentMode
  dsimp only
  rw [x.magnitude_centerVector_comm c d, float_add_comm (x.radius c.radius),
    abs_sub_comm (x.radius c.radius)]

theorem Turned.mode?_eq (h : Turned e e') (x : Placement Float n k) (target : Float) :
    e.mode? x target = e'.mode? x target := by
  cases h with
  | circleDistance c d => exact congrArg some (distanceMode_comm x c d target)
  | tangentCircles c d => exact congrArg some (tangentMode_comm x c d)
  | _ => rfl

/-! ## Residuals of the same sizes -/

theorem sameSizes_refl (xs : List Float) : List.Forall₂ SameSize xs xs :=
  List.forall₂_same.mpr fun a _ => .refl a

theorem sameSizes_trans {xs ys zs : List Float} (h : List.Forall₂ SameSize xs ys)
    (h' : List.Forall₂ SameSize ys zs) : List.Forall₂ SameSize xs zs := by
  induction h generalizing zs with
  | nil => exact h'
  | cons hab _ ih =>
    obtain ⟨c, cs, hbc, hcs, rfl⟩ := List.forall₂_cons_left_iff.mp h'
    exact .cons (hab.trans hbc) (ih hcs)

theorem sameSizes_single {a b : Float} (h : SameSize a b) : List.Forall₂ SameSize [a] [b] :=
  .cons h .nil

/-- Residuals of degenerate geometry are zero for both of two equations. -/
theorem sameSizes_orZero {β : Type} {f g : β → Float} (h : ∀ b, SameSize (f b) (g b))
    (r : Option β) : List.Forall₂ SameSize (orZero (r.map f)) (orZero (r.map g)) := by
  cases r with
  | none => exact sameSizes_refl _
  | some b => exact sameSizes_single (h b)

/-- So it is with two lines that are too short for a direction, in either order. -/
theorem sameSizes_directions {f : Point Float × Point Float × Float → Float}
    (h : ∀ v w lengths, SameSize (f (v, w, lengths)) (f (w, v, lengths)))
    (x : Placement Float n k) (l m : LineRef n) (guard : Float) : List.Forall₂ SameSize
      (orZero ((x.directions? l m guard).map f)) (orZero ((x.directions? m l guard).map f)) := by
  rw [x.directions?_comm l m, Option.map_map]
  exact sameSizes_orZero (fun (v, w, lengths) => h v w lengths) _

theorem angleDegrees_comm (v w : Point Float) (lengths : Float) :
    angleDegrees v w lengths = angleDegrees w v lengths := by
  unfold angleDegrees cosineBetween
  rw [float_mul_comm v.x, float_mul_comm v.y]

theorem circleDistanceResiduals_comm (x : Placement Float n k) (c d : CircleRef n k)
    (target : Float) (mode : Option Mode) : List.Forall₂ SameSize
      (circleDistanceResiduals x c d target mode) (circleDistanceResiduals x d c target mode) := by
  unfold circleDistanceResiduals
  dsimp only
  rw [x.magnitude_centerVector_comm c d, float_add_comm (x.radius c.radius),
    abs_sub_comm (x.radius c.radius)]
  split
  · exact .cons (.sub_swap _ _) (.cons (.sub_swap _ _) (sameSizes_refl _))
  · exact sameSizes_refl _

theorem tangentCirclesResiduals_comm (x : Placement Float n k) (c d : CircleRef n k)
    (mode : Option Mode) : List.Forall₂ SameSize
      (tangentCirclesResiduals x c d mode) (tangentCirclesResiduals x d c mode) := by
  unfold tangentCirclesResiduals
  dsimp only
  rw [x.magnitude_centerVector_comm c d, float_add_comm (x.radius c.radius),
    abs_sub_comm (x.radius c.radius)]
  split
  · exact sameSizes_refl _
  · exact .cons (.sub_swap _ _) (sameSizes_single (.sub_swap _ _))
  · exact sameSizes_refl _

/-- Exchanging the things of an equation changes at most the signs of its residuals. -/
theorem Turned.sameSizes (h : Turned e e') (o : Options Float) (x : Placement Float n k)
    (target : Float) (mode : Option Mode) : List.Forall₂ SameSize
      (e.residuals o x target mode) (e'.residuals o x target mode) := by
  cases h with
  | same => exact sameSizes_refl _
  | levelPoints p q | plumbPoints p q => exact sameSizes_single (.sub_swap _ _)
  | samePoint p q | sameCenter p q =>
    exact .cons (.sub_swap _ _) (sameSizes_single (.sub_swap _ _))
  | circleDistance c d => exact circleDistanceResiduals_comm x c d target mode
  | pointDistance p q =>
    have hlength := Placement.magnitude_congr
      (v := ⟨(x.point q).x - (x.point p).x, (x.point q).y - (x.point p).y⟩)
      (w := ⟨(x.point p).x - (x.point q).x, (x.point p).y - (x.point q).y⟩)
      (.sub_swap _ _) (.sub_swap _ _)
    refine sameSizes_single ?_
    change SameSize (Placement.magnitude ⟨_, _⟩ - target) (Placement.magnitude ⟨_, _⟩ - target)
    rw [hlength]
    exact .refl _
  | angleBetween l m =>
    refine sameSizes_directions (fun v w lengths => ?_) x l m angleGuard
    dsimp only
    rw [angleDegrees_comm]
    exact .refl _
  | parallel l m =>
    refine sameSizes_directions (fun v w lengths => ?_) x l m directionGuard
    -- the cross product of the other order is the other difference of the same products
    dsimp only
    rw [float_mul_comm w.x, float_mul_comm w.y]
    exact ((SameSize.sub_swap _ _).div_right _).mul_right _
  | perpendicular l m =>
    refine sameSizes_directions (fun v w lengths => ?_) x l m directionGuard
    dsimp only
    rw [float_mul_comm w.x, float_mul_comm w.y]
    exact .refl _
  | equalLength l m => exact sameSizes_single (.sub_swap _ _)
  | tangentCircles c d => exact tangentCirclesResiduals_comm x c d mode

/-! ## Targets that are equal as numbers -/

/-- Whether an equation has a target. -/
def hasTarget : Equation n k → Bool
  | lineLength _ | lineCircleDistance .. | circleDistance .. | pointDistance ..
  | pointLineDistance .. | radius _ | angleBetween .. | lineAngle _ => true
  | _ => false

variable {target target' : Float}

theorem mode?_of_beq (h : e.hasTarget = true → (target == target') = true)
    (x : Placement Float n k) : e.mode? x target = e.mode? x target' := by
  cases e with
  | circleDistance c d =>
    have hsub : ∀ a : Float, Scalar.abs (a - target) = Scalar.abs (a - target') := fun a =>
      (SameSize.sub_of_beq (h rfl) a).abs_eq
    refine congrArg some ?_
    unfold distanceMode
    dsimp only
    rw [hsub, hsub]
  | _ => rfl

theorem sameSizes_of_beq (h : e.hasTarget = true → (target == target') = true)
    (o : Options Float) (x : Placement Float n k) (mode : Option Mode) : List.Forall₂ SameSize
      (e.residuals o x target mode) (e.residuals o x target' mode) := by
  cases e with
  | lineLength | radius | pointDistance =>
    exact sameSizes_single (.sub_of_beq (h rfl) _)
  | lineAngle => exact sameSizes_single ((SameSize.sub_of_beq (h rfl) _).mul_right _)
  | lineCircleDistance | pointLineDistance =>
    exact sameSizes_orZero (fun _ => .sub_of_beq (h rfl) _) _
  | angleBetween =>
    exact sameSizes_orZero (fun _ => (SameSize.sub_of_beq (h rfl) _).mul_right _) _
  | circleDistance c d =>
    unfold residuals circleDistanceResiduals
    dsimp only
    split
    · exact .cons (.refl _) (.cons (.refl _) (sameSizes_single (.sub_of_beq (h rfl) _)))
    · exact sameSizes_single (.sub_of_beq (h rfl) _)
  | _ => exact sameSizes_refl _

/-- **An equation in either order.** With the two things of an equation exchanged, and a target that
is equal where there is one, the mode at a placement is the same, and the residuals in this mode
have the same sizes. -/
theorem Turned.sameSizes_of_beq (h : Turned e e')
    (htarget : e.hasTarget = true → (target == target') = true) (o : Options Float)
    (x : Placement Float n k) : e.mode? x target = e'.mode? x target' ∧ List.Forall₂ SameSize
      (e.residuals o x target (e.mode? x target))
      (e'.residuals o x target' (e'.mode? x target')) := by
  have hmode : e.mode? x target = e'.mode? x target' :=
    (mode?_of_beq htarget x).trans (h.mode?_eq x target')
  refine ⟨hmode, ?_⟩
  rw [hmode]
  exact sameSizes_trans (Equation.sameSizes_of_beq htarget o x _) (h.sameSizes o x target' _)

end Equation

/-! ## Patterns on things in another order -/

/-- The same points, lines and circles in another order. -/
structure Operands.Permutes (x y : Operands n k) : Prop where
  points : x.points.Perm y.points
  lines : x.lines.Perm y.lines
  circles : x.circles.Perm y.circles

namespace Equation

variable {β γ : Type} {e e' : Equation n k}

/-- Two equations that come from one pattern: one equation in either order, or equations on
different ones of more references than they have things. -/
inductive Akin : Equation n k → Equation n k → Prop where
  | turned {e e' : Equation n k} (h : Turned e e') : Akin e e'
  | radius (c d : CircleRef n k) : Akin (.radius c) (.radius d)
  | pointDistance (p q p' q' : Fin n) : Akin (.pointDistance p q) (.pointDistance p' q')

theorem turned_of_one {f : β → Equation n k} {xs ys : List β} (hperm : xs.Perm ys)
    (hlength : xs.length = 1) (he : (do return f (← xs[0]?)) = some e)
    (he' : (do return f (← ys[0]?)) = some e') : Turned e e' := by
  obtain ⟨a, rfl⟩ := List.length_eq_one_iff.mp hlength
  obtain rfl := List.perm_singleton.mp hperm.symm
  cases he.symm.trans he'
  exact .same e

theorem turned_of_two {f : β → β → Equation n k} (hf : ∀ a b, Turned (f a b) (f b a))
    {xs ys : List β} (hperm : xs.Perm ys) (hlength : xs.length = 2)
    (he : (do return f (← xs[0]?) (← xs[1]?)) = some e)
    (he' : (do return f (← ys[0]?) (← ys[1]?)) = some e') : Turned e e' := by
  obtain ⟨a, b, rfl⟩ := List.length_eq_two.mp hlength
  rcases List.perm_pair.mp hperm.symm with rfl | rfl
  · cases he.symm.trans he'
    exact .same e
  · cases he
    cases he'
    exact hf a b

theorem turned_of_mixed {f : β → γ → Equation n k} {xs ys : List β} {us vs : List γ}
    (hxs : xs.Perm ys) (hus : us.Perm vs) (hlengths : xs.length = 1 ∧ us.length = 1)
    (he : (do return f (← xs[0]?) (← us[0]?)) = some e)
    (he' : (do return f (← ys[0]?) (← vs[0]?)) = some e') : Turned e e' := by
  obtain ⟨a, rfl⟩ := List.length_eq_one_iff.mp hlengths.1
  obtain ⟨b, rfl⟩ := List.length_eq_one_iff.mp hlengths.2
  obtain rfl := List.perm_singleton.mp hxs.symm
  obtain rfl := List.perm_singleton.mp hus.symm
  cases he.symm.trans he'
  exact .same e

end Equation

section Rules

variable {kind : ConstraintKind} {rule : Rule} {x y : Operands n k} {e e' : Equation n k}

open Equation in
/-- **One pattern gives akin equations.** Whatever the order of the things that a rule fits, it
gives the same equation up to the order, but for those that may be given more than they need. -/
theorem Rule.akin (hrule : kind.rule? x.counts = some rule) (h : x.Permutes y)
    (he : rule.equation? x = some e) (he' : rule.equation? y = some e') : e.Akin e' := by
  have hfits : rule.fits x.counts = true :=
    List.find?_some (p := fun r : Rule => r.fits x.counts) hrule
  replace hrule : rule ∈ kind.rules := List.mem_of_find?_eq_some hrule
  have hboth : ∀ {i j : Nat}, (i == 1 && j == 1) = true → i = 1 ∧ j = 1 := fun h =>
    (Bool.and_eq_true_iff.mp h).imp beq_iff_eq.mp beq_iff_eq.mp
  cases kind with
  | horizontal =>
    rcases List.mem_pair.mp hrule with rfl | rfl
    · exact .turned (turned_of_two .levelPoints h.points (beq_iff_eq.mp hfits) he he')
    · exact .turned (turned_of_one h.lines (beq_iff_eq.mp hfits) he he')
  | vertical =>
    rcases List.mem_pair.mp hrule with rfl | rfl
    · exact .turned (turned_of_two .plumbPoints h.points (beq_iff_eq.mp hfits) he he')
    · exact .turned (turned_of_one h.lines (beq_iff_eq.mp hfits) he he')
  | coincident =>
    simp only [ConstraintKind.rules, List.mem_cons, List.not_mem_nil, or_false] at hrule
    rcases hrule with rfl | rfl | rfl | rfl | rfl
    · exact .turned (turned_of_two .samePoint h.points (beq_iff_eq.mp hfits) he he')
    · exact .turned (turned_of_mixed h.points h.lines (hboth hfits) he he')
    · exact .turned (turned_of_mixed h.lines h.circles (hboth hfits).symm he he')
    · exact .turned (turned_of_mixed h.points h.circles (hboth hfits) he he')
    · exact .turned (turned_of_two .sameCenter h.circles (beq_iff_eq.mp hfits) he he')
  | distance =>
    simp only [ConstraintKind.rules, List.mem_cons, List.not_mem_nil, or_false] at hrule
    rcases hrule with rfl | rfl | rfl | rfl | rfl
    · have hline := (Bool.and_eq_true_iff.mp (Bool.and_eq_true_iff.mp hfits).1).1
      exact .turned (turned_of_one h.lines (beq_iff_eq.mp hline) he he')
    · exact .turned (turned_of_mixed h.lines h.circles (hboth hfits) he he')
    · exact .turned (turned_of_two .circleDistance h.circles (beq_iff_eq.mp hfits) he he')
    · simp only [Operands.twoPoints, Option.bind_eq_bind, Option.bind_eq_some_iff] at he he'
      obtain ⟨p, _, q, _, he⟩ := he
      obtain ⟨p', _, q', _, he'⟩ := he'
      cases he
      cases he'
      exact .pointDistance p q p' q'
    · exact .turned (turned_of_mixed h.points h.lines (hboth hfits) he he')
  | radius =>
    obtain rfl := List.mem_singleton.mp hrule
    simp only [Operands.oneCircle, Option.bind_eq_bind, Option.bind_eq_some_iff] at he he'
    obtain ⟨c, _, he⟩ := he
    obtain ⟨d, _, he'⟩ := he'
    cases he
    cases he'
    exact .radius c d
  | angle =>
    rcases List.mem_pair.mp hrule with rfl | rfl
    · exact .turned (turned_of_two .angleBetween h.lines (beq_iff_eq.mp hfits) he he')
    · exact .turned (turned_of_one h.lines (beq_iff_eq.mp hfits) he he')
  | parallel =>
    obtain rfl := List.mem_singleton.mp hrule
    exact .turned (turned_of_two .parallel h.lines (beq_iff_eq.mp hfits) he he')
  | perpendicular =>
    obtain rfl := List.mem_singleton.mp hrule
    exact .turned (turned_of_two .perpendicular h.lines (beq_iff_eq.mp hfits) he he')
  | equalLength =>
    obtain rfl := List.mem_singleton.mp hrule
    exact .turned (turned_of_two .equalLength h.lines (beq_iff_eq.mp hfits) he he')
  | tangent =>
    simp only [ConstraintKind.rules, List.mem_cons, List.not_mem_nil, or_false] at hrule
    rcases hrule with rfl | rfl | rfl
    · exact .turned (turned_of_mixed h.lines h.circles (hboth hfits) he he')
    · exact .turned (turned_of_two .tangentCircles h.circles (beq_iff_eq.mp hfits) he he')
    · exact .turned (turned_of_mixed h.points h.circles (hboth hfits) he he')
  | concentric =>
    obtain rfl := List.mem_singleton.mp hrule
    exact .turned (turned_of_two .sameCenter h.circles (beq_iff_eq.mp hfits) he he')
  | midpoint =>
    obtain rfl := List.mem_singleton.mp hrule
    exact .turned (turned_of_mixed h.points h.lines (hboth hfits) he he')
  | fixed => cases hrule

/-- Only the pattern of radii sizes one circle, and it is the first. -/
theorem ConstraintKind.radius_of_equation? {c : CircleRef n k}
    (h : kind.equation? x.points x.lines x.circles = some (.radius c)) :
    kind = .radius ∧ x.circles.head? = some c := by
  cases kind with
  | radius =>
    simp only [equation?] at h
    split at h
    · rename_i hcircles
      cases h
      exact ⟨rfl, by rw [hcircles]; rfl⟩
    · cases h
  | fixed => cases h
  | horizontal | vertical | coincident | distance | angle | parallel | perpendicular | equalLength
  | tangent | concentric | midpoint =>
    simp only [equation?] at h
    split at h <;> cases h

/-- Whether distances between points decide about things of given numbers: there are two points or
more, and neither a line and a circle nor two circles, which come before. -/
def Counts.SpansPoints (s : Counts) : Prop :=
  2 ≤ s.points ∧ ¬ (s.lines = 1 ∧ s.circles = 1) ∧ s.circles ≠ 2

/-- Only the pattern of distances between points measures two points, and they are the first. -/
theorem ConstraintKind.pointDistance_of_equation? {p q : Fin n}
    (h : kind.equation? x.points x.lines x.circles = some (.pointDistance p q)) :
    kind = .distance ∧ x.counts.SpansPoints ∧ x.points.take 2 = [p, q] := by
  obtain ⟨ps, ls, cs⟩ := x
  cases kind with
  | distance =>
    rcases ps with _ | ⟨a, _ | ⟨b, ps⟩⟩ <;> rcases ls with _ | ⟨l, _ | ⟨m, ls⟩⟩ <;>
      rcases cs with _ | ⟨c, _ | ⟨d, _ | ⟨e, cs⟩⟩⟩ <;> cases h <;>
      exact ⟨rfl, by simp [Counts.SpansPoints, Operands.counts], rfl⟩
  | fixed => cases h
  | horizontal | vertical | coincident | radius | angle | parallel | perpendicular | equalLength
  | tangent | concentric | midpoint =>
    simp only [equation?] at h
    split at h <;> cases h

/-- A pattern with a target is one of a dimension. -/
theorem ConstraintKind.isDimension_of_hasTarget
    (h : kind.equation? x.points x.lines x.circles = some e) (he : e.hasTarget = true) :
    kind.isDimension = true := by
  cases kind with
  | distance | radius | angle => rfl
  | fixed => cases h
  | horizontal | vertical | coincident | parallel | perpendicular | equalLength | tangent
  | concentric | midpoint =>
    simp only [equation?] at h
    split at h <;> cases h <;> cases he

/-- The references that a pattern takes from the front are the same: the circle that is sized, and
the two points whose distance is meant, in whatever order. -/
structure Operands.Leads (kind : ConstraintKind) (x y : Operands n k) : Prop where
  radius : kind = .radius → x.circles.head? = y.circles.head?
  distance : kind = .distance → x.counts.SpansPoints → (x.points.take 2).Perm (y.points.take 2)

/-- Akin equations differ in the order only, if what is taken from the front is the same. -/
theorem Equation.Akin.leading (h : e.Akin e') (hleads : x.Leads kind y)
    (he : kind.equation? x.points x.lines x.circles = some e)
    (he' : kind.equation? y.points y.lines y.circles = some e') : e.Turned e' := by
  cases h with
  | turned h => exact h
  | radius c d =>
    obtain ⟨hkind, hc⟩ := ConstraintKind.radius_of_equation? he
    obtain ⟨_, hd⟩ := ConstraintKind.radius_of_equation? he'
    have hhead := hleads.radius hkind
    rw [hc, hd] at hhead
    cases hhead
    exact .same _
  | pointDistance p q p' q' =>
    obtain ⟨hkind, hspans, hpq⟩ := ConstraintKind.pointDistance_of_equation? he
    obtain ⟨_, _, hpq'⟩ := ConstraintKind.pointDistance_of_equation? he'
    have hperm := hleads.distance hkind hspans
    rw [hpq, hpq', List.perm_pair] at hperm
    rcases hperm with hsame | hturned
    · cases hsame
      exact .same _
    · cases hturned
      exact .pointDistance p q

end Rules

end Drafting
