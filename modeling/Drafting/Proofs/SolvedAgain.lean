import Drafting.Proofs.IterationCap
import Drafting.Proofs.RoundTrip

/-!
Solving a solution again. The points and circles of a result, with the lines, constraints and options
of the problem it came from, are a problem of their own. It is compiled from the beginning: names are
looked up again, points that a constraint pinned now have a flag as well, radii are raised again, and
the state is put together from what was written out.

All of this comes out as it was when the first solve ended, provided that the final state could be
written down as it is. So if that solve converged, the second one finds the residuals small where it
starts, takes no step, and returns what it was given.
-/

namespace Drafting

open Scalar

variable {n k : Nat}

/-! ## Systems at what a state gives -/

namespace System

/-- The system with its points and circles where a state puts them. -/
def settledAt (s : System Float n k) (x : State Float n k) : System Float n k :=
  { s with vertices := (s.solution x).1, rings := (s.solution x).2 }

variable {s : System Float n k} {x : State Float n k}

theorem solution_vertices_get (i : Fin n) : (s.solution x).1.get i = s.solvedVertex x i :=
  get_ofFn _ i

theorem solution_rings_get (j : Fin k) : (s.solution x).2.get j = s.solvedRing x j :=
  get_ofFn _ j

/-- What is written out of a system compiles to the system at that place: a pinned point has its flag
set, and no other flag changes. -/
theorem compile_solution {vs : Vector (Vertex Float) n} {edges : List Edge}
    {rs : Vector (Ring Float) k} {cs : List Constraint} {o : Options Float}
    (hs : compile vs edges rs cs o = .ok s) (x : State Float n k) :
    compile (s.solution x).1 edges (s.solution x).2 cs o = .ok (s.settledAt x) := by
  obtain ⟨hvs, hrs, _, hpinned⟩ := compile_eq_ok hs
  have hparts : SameParts vs (s.solution x).1 rs (s.solution x).2 := by
    rw [← hvs, ← hrs]
    exact ⟨s.solution_vertexIds x, s.solution_ringIds x⟩
  refine hparts.system_of_flags hs (fun i hi => ?_) fun i hi => ?_
  · rw [solution_vertices_get, solvedVertex, if_pos ((hpinned i).mpr (.inl hi))]
    rfl
  · by_contra hfree
    rw [solution_vertices_get, solvedVertex, if_neg hfree, hvs] at hi
    exact hfree ((hpinned i).mpr (.inl hi))

theorem Plain.settledAt_initial (hx : s.Plain x) : (s.settledAt x).initial = x := by
  refine hx.initial_eq _ _ (fun i => ?_) fun j => ?_
  · rw [solution_vertices_get]
    exact hx.point i
  · rw [solution_rings_get]
    exact hx.radius j

/-- Nothing was lost in writing: at its own points and circles the system can write the state down
as well. -/
theorem Plain.settledAt (hx : s.Plain x) : (s.settledAt x).Plain x := by
  have hheld : ∀ i, (s.settledAt x).HeldAt i x := fun i => by rw [HeldAt, hx.settledAt_initial]
  exact fun i => ⟨(hx i).finiteOrGiven.imp_right fun h => ⟨h.1, hheld i⟩, (hx i).raised,
    fun _ => hheld i⟩

theorem Plain.solvedVertex_eq (hx : s.Plain x) (i : Fin n) :
    s.solvedVertex x i =
      { s.vertices.get i with
        x := (x.placement.point i).x, y := (x.placement.point i).y
        fixed := if s.pinned.get i then .bool true else (s.vertices.get i).fixed } := by
  obtain ⟨hpx, hpy⟩ := hx.point i
  rw [← hpx, ← hpy]
  unfold solvedVertex
  dsimp only
  split <;> rfl

theorem Plain.solvedRing_eq (hx : s.Plain x) (j : Fin k) :
    s.solvedRing x j = { s.rings.get j with radius := x.placement.radius j } := by
  rw [← hx.radius j]
  rfl

/-- Written out again, the state gives the same points and circles. -/
theorem Plain.settledAt_solution (hx : s.Plain x) : (s.settledAt x).solution x = s.solution x := by
  have hvertices : (s.settledAt x).solvedVertex x = s.solvedVertex x := by
    funext i
    have hgiven : (s.settledAt x).vertices.get i = s.solvedVertex x i := solution_vertices_get i
    have hpinned : (s.settledAt x).pinned = s.pinned := rfl
    rw [hx.settledAt.solvedVertex_eq, hgiven, hpinned, hx.solvedVertex_eq]
    split <;> rfl
  have hrings : (s.settledAt x).solvedRing x = s.solvedRing x := by
    funext j
    have hgiven : (s.settledAt x).rings.get j = s.solvedRing x j := solution_rings_get j
    rw [hx.settledAt.solvedRing_eq, hgiven, hx.solvedRing_eq]
  rw [solution, hvertices, hrings]
  rfl

end System

/-! ## The second solve -/

namespace GaussNewton

/-- From a plain state where the residuals are small the method takes no step. -/
theorem solve_settledAt {s : System Float n k} {x : State Float n k} (linear : LinearSolver Float)
    (hx : s.Plain x) (hsmall : smallAt s x = true) :
    solve linear (s.settledAt x) = outcome s ⟨x, 0, .converged⟩ := by
  have hinitial := hx.settledAt_initial
  -- equations and options are those of the first system, and so are the residuals
  have hsmall' : smallAt (s.settledAt x) (s.settledAt x).initial = true := by
    rw [hinitial]
    exact hsmall
  have hstart : Reached linear (s.settledAt x) 0 (s.settledAt x).initial := .start
  have hsolve := hstart.outcome_of_small hsmall'
    (Nat.zero_le (s.settledAt x).options.maxIterations.toNat)
  have houtcome : outcome (s.settledAt x) ⟨x, 0, .converged⟩ = outcome s ⟨x, 0, .converged⟩ := by
    unfold outcome
    rw [hx.settledAt_solution]
    rfl
  rw [hinitial] at hsolve
  rw [← houtcome, ← hsolve, solve, hinitial]

/-- The final state can be written down if it is finite and if adding zero changes no coordinate of a
pinned point. -/
theorem final_plain {p : Problem} {s : System Float p.vertices.length p.rings.length}
    (hs : p.system = .ok s) {linear : LinearSolver Float}
    (hfinite : ∀ i, Scalar.isFinite ((final linear s).get i) = true)
    (hsteady : ∀ i v, p.Holds i → p.vertices[i]? = some v → v.x + 0.0 = v.x ∧ v.y + 0.0 = v.y) :
    s.Plain (final linear s) := by
  obtain ⟨hvs, _⟩ := System.compile_eq_ok hs
  refine fun i => ⟨.inl (hfinite i), final_raised linear s i, fun hi => final_heldAt hi ?_⟩
  have hlt := System.isPinned_lt hi
  have hholds : p.Holds (i.val / 2) := by
    rw [System.isPinned, dif_pos hlt] at hi
    exact (Problem.pinned_iff hs _).mp hi
  obtain ⟨hx, hy⟩ := hsteady (i.val / 2) (s.vertices.get ⟨i.val / 2, System.half_lt hlt⟩) hholds
    (by rw [hvs, Problem.vertexVector_get]; simp)
  rw [System.initial_get_of_lt hlt]
  split
  · exact hx
  · exact hy

end GaussNewton

/-- The method over vectors that list the points and circles of a problem. -/
theorem Backend.gaussNewtonWith_solve_eq (linear : LinearSolver Float) {p : Problem}
    (vs : Vector (Vertex Float) n) (rs : Vector (Ring Float) k) (hvs : vs.toList = p.vertices)
    (hrs : rs.toList = p.rings) :
    (Backend.gaussNewtonWith linear).solve p =
      (System.compile vs p.edges rs p.constraints p.options).map fun s =>
        let o := GaussNewton.solve linear s
        o.solution (GaussNewton.message o) := by
  have hn : p.vertices.length = n := by rw [← hvs, Vector.length_toList]
  have hk : p.rings.length = k := by rw [← hrs, Vector.length_toList]
  subst hn
  subst hk
  have hv : vs = p.vertexVector := Vector.toList_inj.mp hvs
  have hr : rs = p.ringVector := Vector.toList_inj.mp hrs
  rw [hv, hr]
  rfl

/-- The problem with the points and circles of a result. -/
def Problem.resumed (p : Problem) (r : Solution) : Problem :=
  { p with vertices := r.vertices, rings := r.rings }

/-- A result says the same as another but for the number of steps, which is zero. -/
structure Solution.Confirms (r' r : Solution) : Prop where
  vertices : r'.vertices = r.vertices
  rings : r'.rings = r.rings
  success : r'.success = true
  status : r'.status = .converged
  iterations : r'.iterations = 0
  error : r'.error = r.error
  variableCount : r'.variableCount = r.variableCount
  residualCount : r'.residualCount = r.residualCount

/-- **Solving a solution again changes nothing.** If the Gauss–Newton method converges at a finite
state, and no coordinate of a held point is a negative zero, it converges on its own result without a
step: points, flags, radii, error and number of residuals are the same. The linear systems may be
solved in any way. -/
theorem solved_again_unchanged (linear : LinearSolver Float) (p : Problem)
    (s : System Float p.vertices.length p.rings.length) (r : Solution) (hs : p.system = .ok s)
    (h : (Backend.gaussNewtonWith linear).solve p = .ok r) (hstatus : r.status = .converged)
    (hfinite : ∀ i, Scalar.isFinite ((GaussNewton.final linear s).get i) = true)
    (hsteady : ∀ i v, p.Holds i → p.vertices[i]? = some v → v.x + 0.0 = v.x ∧ v.y + 0.0 = v.y) :
    ∃ r', (Backend.gaussNewtonWith linear).solve (p.resumed r) = .ok r' ∧ r'.Confirms r := by
  have hx := GaussNewton.final_plain hs hfinite hsteady
  obtain ⟨s', hs', h⟩ := bind_eq_ok.mp h
  cases hs.symm.trans hs'
  cases h
  have hhalt := GaussNewton.run_halts linear s s.options.maxIterations.toNat .start
  have hsmall := hhalt.converged_iff.mp hstatus
  have hsecond := GaussNewton.solve_settledAt linear hx hsmall
  have hcompile := System.compile_solution hs (GaussNewton.final linear s)
  let again := GaussNewton.outcome s ⟨GaussNewton.final linear s, 0, .converged⟩
  refine ⟨again.solution (GaussNewton.message again), ?_, ⟨rfl, rfl, rfl, rfl, rfl, rfl, rfl, rfl⟩⟩
  rw [Backend.gaussNewtonWith_solve_eq linear (s.solution (GaussNewton.final linear s)).1
    (s.solution (GaussNewton.final linear s)).2 rfl rfl]
  exact map_eq_ok.mpr ⟨_, hcompile, by rw [hsecond]⟩

/-- A circle that is to be half as large, around a point that a constraint holds, and another point
that is to be at its centre. -/
def shrinkingCircle : Problem where
  vertices :=
    [{ id := .text "p", x := 0.0, y := 0.0 },
      { id := .text "m", x := 10.0, y := 3.0 }]
  edges := []
  rings := [{ id := .text "k", center := .text "m", radius := 4.0 }]
  constraints :=
    [.fixing (.text "f") (.text "m") .null, .coincidence (.text "c") (.text "p") (.text "m"),
      .radius (.text "r") (.text "k") (.float 2.0)]
  options := .standard

/-- The first solve takes three steps. The second takes none, although the centre is now held by a
flag as well as by the constraint. -/
theorem solved_again_unchanged_shrinkingCircle :
    ∃ r r', Backend.gaussNewton.solve shrinkingCircle = .ok r ∧ r.iterations = 3 ∧
      Backend.gaussNewton.solve (shrinkingCircle.resumed r) = .ok r' ∧ r'.Confirms r := by
  have hrun : (match Backend.gaussNewton.solve shrinkingCircle with
      | .ok r => decide (r.status = .converged ∧ r.iterations = 3)
      | .error _ => false) = true := by decide +kernel
  have hfinal : (match shrinkingCircle.system with
      | .ok s => decide (∀ i, Scalar.isFinite ((GaussNewton.final floatSolver s).get i) = true)
      | .error _ => false) = true := by decide +kernel
  have hsteady : ∀ v ∈ shrinkingCircle.vertices, v.x + 0.0 = v.x ∧ v.y + 0.0 = v.y := by
    decide +kernel
  split at hrun
  case h_2 => cases hrun
  case h_1 r hr =>
    obtain ⟨hstatus, hiterations⟩ := of_decide_eq_true hrun
    split at hfinal
    case h_2 => cases hfinal
    case h_1 s hs =>
      obtain ⟨r', hr', hconfirms⟩ := solved_again_unchanged floatSolver shrinkingCircle s r hs hr
        hstatus
        (of_decide_eq_true hfinal) fun i v _ hv => hsteady v (List.mem_of_getElem? hv)
      exact ⟨r, r', hr, hiterations, hr', hconfirms⟩

end Drafting
