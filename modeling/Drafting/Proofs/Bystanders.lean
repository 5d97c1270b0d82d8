import Drafting.Proofs.Evaluation
import Drafting.Proofs.FinalState
import Drafting.Proofs.NormalEquations

/-!
Geometry that no equation reads does not move. Moving a variable that no equation reads changes no
residual, so that its column of the Jacobian is zero, and a step that solves the damped normal
equations exactly is zero there. Coordinates therefore keep the values that were given, through
every step and in the result, and radii keep theirs once they are raised to the least one.
-/

namespace Drafting

open Scalar

/-! ## Unread variables -/

namespace System

variable {α : Type} [Scalar α] {n k : Nat} {s : System α n k}

/-- No equation reads a place of a state, whatever the state. -/
def Unread (s : System α n k) (i : Nat) : Prop :=
  ∀ t ∈ s.terms, ∀ x : Placement α n k, i ∉ t.equation.footprint x

/-- No equation refers to a point, neither by itself nor as an end of a line nor as a center. -/
def Unmentioned (s : System α n k) (p : Fin n) : Prop := ∀ t ∈ s.terms, p ∉ t.equation.vertices

/-- The coordinates of a point that no equation refers to are not read. -/
theorem Unmentioned.unread {p : Fin n} (h : s.Unmentioned p) :
    s.Unread (2 * p.val) ∧ s.Unread (2 * p.val + 1) := by
  have hplace : ∀ t ∈ s.terms, ∀ i, i / 2 = p.val → ¬ t.equation.MayRead i := by
    intro t ht i hi hread
    -- A place tells which point it belongs to, and radii come after all points.
    cases hread with
    | @first q hq | @second q hq =>
      have hpq : p = q := Fin.ext (by omega)
      exact h t ht (hpq ▸ hq)
    | radius => omega
  exact ⟨fun t ht x hx => hplace t ht _ (by omega) (t.equation.footprint_mayRead x _ hx),
    fun t ht x hx => hplace t ht _ (by omega) (t.equation.footprint_mayRead x _ hx)⟩

theorem nudge_get_of_ne (x : State α n k) (step : α) {i j : Fin (2 * n + k)} (h : i.val ≠ j.val) :
    (nudge x i step).get j = x.get j := by
  have hset : (x.set i.val (x.get i + step) i.isLt)[j.val] = x[j.val] :=
    Vector.getElem_set_ne i.isLt j.isLt h
  exact hset

/-- Moving a variable that no equation reads changes no residual. -/
theorem Unread.residuals_nudge {i : Fin (2 * n + k)} (h : s.Unread i.val) (x : State α n k)
    (step : α) (modes : List (Option Mode)) :
    s.residuals (nudge x i step) modes = s.residuals x modes := by
  unfold residuals
  rw [List.flatMap_def, List.flatMap_def]
  congr 1
  refine List.map_congr_left fun ⟨t, mode⟩ hmem => ?_
  refine (Equation.residuals_congr s.options t.target mode fun j hj => ?_).symm
  have hij : i.val ≠ j.val := fun hij => h t (List.of_mem_zip hmem).1 x.placement (hij ▸ hj)
  exact (nudge_get_of_ne x step hij).symm

/-! ## What was given -/

/-- Where something puts the points and how large it makes the circles is as they were given,
wherever no equation reads it: coordinates as they are, radii raised to the least one. -/
structure Undisturbed [LinearOrder α] (s : System α n k) (point : Fin n → Point α)
    (radius : Fin k → α) : Prop where
  first : ∀ p, s.Unread (2 * p.val) → (point p).x = (s.vertices.get p).x
  second : ∀ p, s.Unread (2 * p.val + 1) → (point p).y = (s.vertices.get p).y
  radius : ∀ j, s.Unread (2 * n + j.val) →
    radius j = max s.options.minRadius (s.rings.get j).radius

end System

/-! ## Steps and runs -/

namespace GaussNewton

variable {K : Type} [Field K] [LinearOrder K] [Elementary K] {n k : Nat} {s : System K n k}
  {linear : LinearSolver K}

/-- The column of a variable that no equation reads is zero. -/
theorem column_zero {i : Fin (2 * n + k)} (hi : s.Unread i.val) (x : State K n k)
    (modes : List (Option Mode)) :
    ∀ a ∈ (s.jacobian x (s.residuals x modes) modes).get i, a = 0 := by
  intro a ha
  rw [System.jacobian, get_ofFn, System.jacobianColumn] at ha
  split at ha
  · obtain ⟨_, _, rfl⟩ := List.mem_map.mp ha
    exact zero_eq
  · dsimp only at ha
    rw [hi.residuals_nudge, List.zipWith_self] at ha
    obtain ⟨b, _, rfl⟩ := List.mem_map.mp ha
    rw [sub_self, zero_div]

variable [IsStrictOrderedRing K]

/-- An exact step is zero where no equation reads. -/
theorem step?_unread (hlinear : linear.Exact) (hdamping : 0 < s.options.damping)
    {x dx : State K n k} (hstep : step? linear s x = some dx) {i : Fin (2 * n + k)}
    (hi : s.Unread i.val) : dx.get i = 0 :=
  NormalEquations.step_zero hlinear hdamping hstep (column_zero hi x (s.modes x))

/-- What no equation reads is everywhere on the way as it was at the beginning. -/
theorem Reached.unread (hlinear : linear.Exact) (hdamping : 0 < s.options.damping) {count : Nat}
    {x : State K n k} (h : Reached linear s count x) {i : Fin (2 * n + k)}
    (hi : s.Unread i.val) : s.HeldAt i x := by
  refine h.keeps (P := s.HeldAt i) rfl fun x dx hx hstep => ?_
  unfold System.HeldAt at hx ⊢
  have hsum : x.get i + dx.get i = s.initial.get i := by
    rw [step?_unread hlinear hdamping hstep hi, hx, add_zero]
  rw [moved, System.clampRadii_get, get_ofFn, hsum]
  split
  · rfl
  · rename_i hradius
    -- A radius was raised at the beginning already.
    obtain ⟨a, ha⟩ := s.initial_raised i hradius
    rw [ha, atLeast_eq, atLeast_eq, max_eq_right (le_max_left _ _)]

theorem Reached.undisturbed (hlinear : linear.Exact) (hdamping : 0 < s.options.damping)
    {count : Nat} {x : State K n k} (h : Reached linear s count x) :
    s.Undisturbed x.placement.point x.placement.radius where
  first p hp := by
    have hheld := h.unread hlinear hdamping (i := ⟨2 * p.val, by omega⟩) hp
    exact hheld.trans (congrArg Point.x (s.initial_point p))
  second p hp := by
    have hheld := h.unread hlinear hdamping (i := ⟨2 * p.val + 1, by omega⟩) hp
    exact hheld.trans (congrArg Point.y (s.initial_point p))
  radius j hj := by
    have hheld := h.unread hlinear hdamping (i := ⟨2 * n + j.val, by omega⟩) hj
    rw [← atLeast_eq]
    exact hheld.trans (s.initial_radius j)

end GaussNewton

/-! ## Results -/

section Results

variable {K : Type} [Field K] [LinearOrder K] [Elementary K] {n k : Nat}

/-- Writing a state out disturbs nothing: pinned points are written as they were given, and radii
are raised once more. -/
theorem System.Undisturbed.solution {s : System K n k} {x : State K n k}
    (h : s.Undisturbed x.placement.point x.placement.radius) :
    s.Undisturbed (fun p => ⟨(s.solvedVertex x p).x, (s.solvedVertex x p).y⟩)
      fun j => (s.solvedRing x j).radius where
  first p hp := by
    unfold solvedVertex
    dsimp only
    split
    · rfl
    · exact h.first p hp
  second p hp := by
    unfold solvedVertex
    dsimp only
    split
    · rfl
    · exact h.second p hp
  radius j hj := by
    unfold solvedRing
    dsimp only
    rw [finiteOr_eq, larger_eq, h.radius j hj, max_eq_left (le_max_left _ _)]

/-- **Geometry that no equation reads does not move**: with an exact solver and positive damping,
after any number of steps and in the result its coordinates are those given and its radii those
given, raised to the least one. The coordinates of a point that no equation refers to are not
read. -/
theorem unread_undisturbed [IsStrictOrderedRing K] {linear : LinearSolver K}
    (hlinear : linear.Exact) {vs : Vector (Vertex K) n} {edges : List Edge}
    {rs : Vector (Ring K) k} {cs : List Constraint} {o : Options K} {s : System K n k}
    (hs : System.compile vs edges rs cs o = .ok s) (hdamping : 0 < o.damping) :
    (s.vertices = vs ∧ s.rings = rs ∧ s.options = o) ∧
      (∀ cap, s.Undisturbed (GaussNewton.run linear s cap s.initial 0).state.placement.point
        (GaussNewton.run linear s cap s.initial 0).state.placement.radius) ∧
      s.Undisturbed
        (fun p => ⟨((GaussNewton.solve linear s).vertices.get p).x,
          ((GaussNewton.solve linear s).vertices.get p).y⟩)
        (fun j => ((GaussNewton.solve linear s).rings.get j).radius) ∧
      ∀ p, s.Unmentioned p → s.Unread (2 * p.val) ∧ s.Unread (2 * p.val + 1) := by
  obtain ⟨hvertices, hrings, hoptions, _⟩ := System.compile_eq_ok hs
  have hrun : ∀ cap, s.Undisturbed (GaussNewton.run linear s cap s.initial 0).state.placement.point
      (GaussNewton.run linear s cap s.initial 0).state.placement.radius := by
    intro cap
    exact (GaussNewton.run_halts linear s cap .start).reached.undisturbed hlinear
      (hoptions ▸ hdamping)
  refine ⟨⟨hvertices, hrings, hoptions⟩, hrun, ?_, fun p hp => hp.unread⟩
  simpa only [GaussNewton.solve, GaussNewton.outcome, System.solution, get_ofFn] using
    (hrun s.options.maxIterations.toNat).solution

end Results

/-- The ends of a segment and a point beside it. -/
def segmentAndPoint : Vector (Vertex ℚ) 3 := #v[
  { id := .text "a", x := 0, y := 0 },
  { id := .text "b", x := 10, y := 1 },
  { id := .text "beside", x := 5, y := 7 }]

/-- A circle around one end of the segment, smaller than a circle may be. -/
def tinyCircle : Vector (Ring ℚ) 1 := #v[
  { id := .text "k", center := .text "a", radius := 1 / 100 }]

/-- The ends of the segment are to be at the same height. -/
def levelEnds : Constraint where
  kind := .horizontal
  id := .text "level"
  points := [.text "a", .text "b"]

/-- The segment is levelled. The point beside it stays, and the circle is only raised to the least
radius. -/
theorem unread_undisturbed_levelled :
    ∃ s, System.compile segmentAndPoint [] tinyCircle [levelEnds] .standard = .ok s ∧
      (∀ cap, (GaussNewton.run .byDeterminants s cap s.initial 0).state.placement.point 2 =
        ⟨5, 7⟩) ∧
      ((GaussNewton.solve .byDeterminants s).rings.get 0).radius = 1 / 10 := by
  have hterms : (match System.compile segmentAndPoint [] tinyCircle [levelEnds] .standard with
      | .ok s => decide (s.terms.map (·.equation) = [.levelPoints 0 1])
      | .error _ => false) = true := by decide +kernel
  split at hterms
  case h_2 => cases hterms
  case h_1 s hs =>
    have hequation : ∀ t ∈ s.terms, t.equation = .levelPoints 0 1 := by
      intro t ht
      have hmem := List.mem_map_of_mem (f := (·.equation)) ht
      rw [of_decide_eq_true hterms] at hmem
      exact List.mem_singleton.mp hmem
    have hpoint : s.Unmentioned 2 := fun t ht => by rw [hequation t ht]; decide
    have hradius : s.Unread (2 * 3 + (0 : Fin 1).val) := fun t ht x => by
      rw [hequation t ht]
      simp [Equation.footprint]
    obtain ⟨⟨hvertices, hrings, hoptions⟩, hrun, hresult, hunread⟩ :=
      unread_undisturbed LinearSolver.byDeterminants_exact hs (by decide +kernel)
    refine ⟨s, hs, fun cap => ?_, ?_⟩
    · have hx := (hrun cap).first 2 (hunread 2 hpoint).1
      have hy := (hrun cap).second 2 (hunread 2 hpoint).2
      rw [hvertices] at hx hy
      exact congrArg₂ Point.mk hx hy
    · rw [hresult.radius 0 hradius, hrings, hoptions]
      decide +kernel

end Drafting
