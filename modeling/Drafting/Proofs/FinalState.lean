import Drafting.Proofs.Compilation
import Drafting.Proofs.Iteration
import Drafting.Solver.Selection

/-!
Where a solve ends. A method, Gauss–Newton or a bounded optimiser of any kind, leads from the
initial state of a compiled problem to a final state; its result is the points and circles that the
final state gives, and it says that it converged exactly if the residuals at the final state are
small, in the modes in which the method judges.

On the way no radius falls below the least one, and no coordinate of a pinned point moves. What the
optimiser answers plays no part in this: only free variables are taken from it.
-/

namespace Drafting

open Scalar

variable {α : Type} {n k : Nat}

/-! ## States on the way -/

namespace System

/-- Every radius of a state was raised to the least one. -/
def Raised [Scalar α] (s : System α n k) (x : State α n k) : Prop :=
  ∀ i, ¬ i.val < 2 * n → ∃ a, x.get i = atLeast s.options.minRadius a

/-- A variable of a state has its initial value. -/
def HeldAt [Scalar α] (s : System α n k) (i : Fin (2 * n + k)) (x : State α n k) : Prop :=
  x.get i = s.initial.get i

theorem clampRadii_get [Scalar α] (m : α) (x : State α n k) (i : Fin (2 * n + k)) :
    (State.clampRadii m x).get i = if i.val < 2 * n then x.get i else atLeast m (x.get i) :=
  get_ofFn _ i

theorem isPinned_lt {s : System α n k} {i : Fin (2 * n + k)} (h : s.isPinned i = true) :
    i.val < 2 * n := by
  unfold isPinned at h
  split at h
  · assumption
  · cases h

theorem clampRadii_raised [Scalar α] (s : System α n k) (x : State α n k) :
    s.Raised (State.clampRadii s.options.minRadius x) :=
  fun _ hi => ⟨_, by rw [clampRadii_get, if_neg hi]⟩

theorem initial_raised [Scalar α] (s : System α n k) : s.Raised s.initial :=
  s.clampRadii_raised _

theorem half_lt {i : Fin (2 * n + k)} (hi : i.val < 2 * n) : i.val / 2 < n := by omega

theorem sub_lt {i : Fin (2 * n + k)} (hi : ¬ i.val < 2 * n) : i.val - 2 * n < k := by omega

theorem first_lt (k : Nat) (p : Fin n) : 2 * p.val < 2 * n + k := by omega

theorem second_lt (k : Nat) (p : Fin n) : 2 * p.val + 1 < 2 * n + k := by omega

theorem radius_lt (n : Nat) (j : Fin k) : 2 * n + j.val < 2 * n + k := by omega

theorem initial_get_of_lt [Scalar α] {s : System α n k} {i : Fin (2 * n + k)}
    (hi : i.val < 2 * n) :
    s.initial.get i =
      if i.val % 2 = 0 then (s.vertices.get ⟨i.val / 2, half_lt hi⟩).x
      else (s.vertices.get ⟨i.val / 2, half_lt hi⟩).y := by
  rw [initial, clampRadii_get, if_pos hi, State.build, get_ofFn, dif_pos hi]

theorem initial_get_of_not_lt [Scalar α] {s : System α n k} {i : Fin (2 * n + k)}
    (hi : ¬ i.val < 2 * n) :
    s.initial.get i =
      atLeast s.options.minRadius (s.rings.get ⟨i.val - 2 * n, sub_lt hi⟩).radius := by
  rw [initial, clampRadii_get, if_neg hi, State.build, get_ofFn, dif_neg hi]

/-- The points are put where they were given. -/
theorem initial_point [Scalar α] (s : System α n k) (p : Fin n) :
    s.initial.placement.point p = ⟨(s.vertices.get p).x, (s.vertices.get p).y⟩ := by
  have hsecond : 2 * p.val + 1 < 2 * n := by omega
  have hodd : (2 * p.val + 1) % 2 = 1 := by omega
  have hhalf : (2 * p.val + 1) / 2 = p.val := by omega
  simp only [State.placement]
  rw [initial_get_of_lt (by simp), initial_get_of_lt hsecond]
  simp [hodd, hhalf]

/-- The radii are those given, raised to the least one. -/
theorem initial_radius [Scalar α] (s : System α n k) (j : Fin k) :
    s.initial.placement.radius j = atLeast s.options.minRadius (s.rings.get j).radius := by
  simp only [State.placement]
  rw [initial_get_of_not_lt (by simp)]
  simp

/-! ## Solutions -/

theorem solution_vertex [Scalar α] (s : System α n k) (x : State α n k) (i : Fin n) :
    (s.solution x).1.toList[i.val]? = some (s.solvedVertex x i) := by
  rw [solution, Vector.toList_ofFn, List.getElem?_ofFn]
  simp

theorem solution_ring [Scalar α] (s : System α n k) (x : State α n k) (j : Fin k) :
    (s.solution x).2.toList[j.val]? = some (s.solvedRing x j) := by
  rw [solution, Vector.toList_ofFn, List.getElem?_ofFn]
  simp

theorem solvedVertex_id [Scalar α] (s : System α n k) (x : State α n k) (i : Fin n) :
    (s.solvedVertex x i).id = (s.vertices.get i).id := by
  unfold solvedVertex
  dsimp only
  split <;> rfl

theorem solution_vertexIds [Scalar α] (s : System α n k) (x : State α n k) :
    (s.solution x).1.toList.map (·.id) = s.vertices.toList.map (·.id) := by
  rw [solution, Vector.toList_ofFn, List.map_ofFn]
  refine List.ext_getElem (by simp) fun i _ hi => ?_
  simp only [List.getElem_ofFn, List.getElem_map, Function.comp_def, solvedVertex_id]
  rfl

theorem solution_ringIds [Scalar α] (s : System α n k) (x : State α n k) :
    (s.solution x).2.toList.map (fun c => (c.id, c.center)) =
      s.rings.toList.map fun c => (c.id, c.center) := by
  rw [solution, Vector.toList_ofFn, List.map_ofFn]
  refine List.ext_getElem (by simp) fun i _ hi => ?_
  simp only [List.getElem_ofFn, List.getElem_map, Function.comp_def, solvedRing]
  rfl

end System

namespace GaussNewton

variable [Scalar α] {linear : LinearSolver α} {s : System α n k}

/-- A step is zero at the coordinates of pinned points. -/
theorem step?_pinned {x dx : State α n k} (h : step? linear s x = some dx) {i : Fin (2 * n + k)}
    (hi : s.isPinned i = true) : dx.get i = zero := by
  unfold step? NormalEquations.step? at h
  dsimp only at h
  split at h
  · cases h
    rw [get_ofFn, System.mask, get_ofFn, if_pos hi]
  · cases h

/-- The state at which the method ends. -/
def final (linear : LinearSolver α) (s : System α n k) : State α n k :=
  (run linear s s.options.maxIterations.toNat s.initial 0).state

theorem final_reached (linear : LinearSolver α) (s : System α n k) :
    ∃ count, Reached linear s count (final linear s) :=
  ⟨_, (run_halts linear s _ .start).reached⟩

theorem final_raised (linear : LinearSolver α) (s : System α n k) : s.Raised (final linear s) := by
  obtain ⟨count, h⟩ := final_reached linear s
  exact h.keeps s.initial_raised fun _ _ _ _ => s.clampRadii_raised _

/-- A step adds zero to the coordinates of pinned points, which changes no number but a negative
zero. -/
theorem final_heldAt {i : Fin (2 * n + k)} (hi : s.isPinned i = true)
    (hzero : s.initial.get i + zero = s.initial.get i) : s.HeldAt i (final linear s) := by
  obtain ⟨count, h⟩ := final_reached linear s
  refine h.keeps (P := s.HeldAt i) rfl fun x dx hx hstep => ?_
  unfold System.HeldAt at hx ⊢
  rw [moved, System.clampRadii_get, if_pos (System.isPinned_lt hi), get_ofFn,
    step?_pinned hstep hi, hx, hzero]

end GaussNewton

namespace Bounded

/-- Variables that are not free are not replaced. -/
theorem scatter_get_of_notMem {N : Nat} {x : Vector α N} {free : List (Fin N)}
    {z : Vector α free.length} {i : Fin N} (hi : i ∉ free) :
    (scatter x free z).get i = x.get i := by
  unfold scatter
  generalize List.finRange free.length = places
  induction places generalizing x with
  | nil => rfl
  | cons j places ih =>
    have hne : (free.get j).val ≠ i.val := by
      intro heq
      exact hi (Fin.ext heq ▸ List.get_mem free j)
    rw [List.foldl_cons, ih]
    exact Vector.getElem_set_ne _ _ hne

variable [Scalar α] {optimiser : Fit.Optimiser α} {s : System α n k}

/-- The state at the point that the optimiser gave; the initial one if the point is not finite. -/
def accepted (s : System α n k) (a : Fit.Answer α s.free.length) : State α n k :=
  if a.point.toList.all isFinite then
    State.clampRadii s.options.minRadius (scatter s.initial s.free a.point)
  else s.initial

/-- The state at which the method ends: the initial one if there was nothing to do or nothing
usable was answered. -/
def final (optimiser : Fit.Optimiser α) (s : System α n k) : State α n k :=
  let modes := s.modes s.initial
  let r := s.residuals s.initial modes
  if s.free.isEmpty || r.isEmpty || lt (rms r) s.options.tolerance then s.initial
  else
    match optimiser _ (problem s modes) with
    | .ok a => accepted s a
    | .error _ => s.initial

theorem final_cases (optimiser : Fit.Optimiser α) (s : System α n k) :
    final optimiser s = s.initial ∨
      ∃ z, final optimiser s =
        State.clampRadii s.options.minRadius (scatter s.initial s.free z) := by
  unfold final
  dsimp only
  split
  · exact .inl rfl
  · split
    · unfold accepted
      split
      · exact .inr ⟨_, rfl⟩
      · exact .inl rfl
    · exact .inl rfl

theorem final_raised (optimiser : Fit.Optimiser α) (s : System α n k) :
    s.Raised (final optimiser s) := by
  rcases final_cases optimiser s with h | ⟨z, h⟩
  · rw [h]
    exact s.initial_raised
  · rw [h]
    exact s.clampRadii_raised _

theorem final_heldAt {i : Fin (2 * n + k)} (hi : s.isPinned i = true) :
    s.HeldAt i (final optimiser s) := by
  have hfree : i ∉ s.free := by simp [System.free, hi]
  unfold System.HeldAt
  rcases final_cases optimiser s with h | ⟨z, h⟩
  · rw [h]
  · rw [h, System.clampRadii_get, if_pos (System.isPinned_lt hi), scatter_get_of_notMem hfree]

/-- A pair of outcome and note is that at a state, converged exactly if the residuals there are
small. -/
def JudgedAt (s : System α n k) (modes : List (Option Mode)) (x : State α n k)
    (result : Outcome α n k × Note α) : Prop :=
  ∃ status iterations note, result = (outcome s modes x status iterations, note) ∧
    (status = .converged ↔ lt (rms (s.residuals x modes)) s.options.tolerance = true)

/-- An answer is judged where it leads; if it is not finite that is the initial state, which was
judged already. -/
theorem accept_judged {s : System α n k} {modes : List (Option Mode)}
    (hlarge : lt (rms (s.residuals s.initial modes)) s.options.tolerance = false)
    (a : Fit.Answer α s.free.length) : JudgedAt s modes (accepted s a) (accept s modes a) := by
  unfold accept accepted
  by_cases hfinite : a.point.toList.all isFinite = true
  · simp only [hfinite, Bool.not_true, Bool.false_eq_true, if_false, if_true]
    split
    · rename_i hsmall
      exact ⟨_, _, _, rfl, by simp [hsmall]⟩
    · rename_i hsmall
      exact ⟨_, _, _, rfl, by simp [hsmall]⟩
  · simp only [hfinite, Bool.not_false, Bool.false_eq_true, if_true, if_false]
    exact ⟨_, _, _, rfl, by simp [hlarge]⟩

theorem solve_judged (optimiser : Fit.Optimiser α) (s : System α n k) :
    JudgedAt s (s.modes s.initial) (final optimiser s) (solve optimiser s) := by
  unfold solve final
  dsimp only
  split
  · -- nothing to do; that counts as converged if the residuals are small already
    refine ⟨_, _, _, rfl, ?_⟩
    split <;> simp_all
  · rename_i hsearch
    have hlarge : lt (rms (s.residuals s.initial (s.modes s.initial))) s.options.tolerance =
        false := by
      simp only [Bool.or_eq_true, not_or, Bool.not_eq_true] at hsearch
      exact hsearch.2
    cases optimiser _ (problem s (s.modes s.initial)) with
    | ok a => exact accept_judged hlarge a
    | error reason => exact ⟨_, _, _, rfl, by simp [hlarge]⟩

end Bounded

/-! ## Methods -/

/-- The ways to solve: Gauss–Newton with some solver of its linear systems, or a bounded optimiser
under a name. -/
inductive Method where
  | gaussNewton (linear : LinearSolver Float)
  | bounded (name : String) (optimiser : Fit.Optimiser Float)

namespace Method

/-- The backend of a method. -/
def backend : Method → Backend
  | gaussNewton linear => .gaussNewtonWith linear
  | bounded name optimiser => .bounded name optimiser

/-- Whether a method keeps the modes of the initial state throughout. -/
def freezesModes : Method → Bool
  | gaussNewton _ => false
  | bounded .. => true

/-- The state at which a method ends. -/
def final (m : Method) (s : System Float n k) : State Float n k :=
  match m with
  | gaussNewton linear => GaussNewton.final linear s
  | bounded _ optimiser => Bounded.final optimiser s

/-- The modes in which a method judges where it ends: Gauss–Newton chooses them there, the bounded
methods keep those of the initial state. -/
def modes (m : Method) (s : System Float n k) : List (Option Mode) :=
  s.modes (if m.freezesModes then s.initial else m.final s)

theorem final_raised (m : Method) (s : System Float n k) : s.Raised (m.final s) := by
  cases m with
  | gaussNewton linear => exact GaussNewton.final_raised linear s
  | bounded name optimiser => exact Bounded.final_raised optimiser s

/-- The coordinates of pinned points do not move; only Gauss–Newton turns a negative zero into
zero. -/
theorem final_heldAt (m : Method) {s : System Float n k} {i : Fin (2 * n + k)}
    (hi : s.isPinned i = true)
    (hzero : m.freezesModes = false → s.initial.get i + zero = s.initial.get i) :
    s.HeldAt i (m.final s) := by
  cases m with
  | gaussNewton linear => exact GaussNewton.final_heldAt hi (hzero rfl)
  | bounded name optimiser => exact Bounded.final_heldAt hi

/-- A result tells of a method's final state: the points and circles are what the state gives, the
error is what is left of the residuals there, counted with them, and the method converged exactly if
that is small. -/
structure Gives (m : Method) (s : System Float n k) (r : Solution) : Prop where
  vertices : r.vertices = (s.solution (m.final s)).1.toList
  rings : r.rings = (s.solution (m.final s)).2.toList
  error : r.error = rms (s.residuals (m.final s) (m.modes s))
  success : r.success = true ↔ r.status = .converged
  verdict : r.status = .converged ↔ lt r.error s.options.tolerance = true
  variableCount : r.variableCount = 2 * n + k
  residualCount : r.residualCount = (s.residuals (m.final s) (m.modes s)).length

/-- **What a method returns** tells of its final state. -/
theorem solve_eq_ok {m : Method} {p : Problem} {r : Solution} (h : m.backend.solve p = .ok r) :
    ∃ s, p.system = .ok s ∧ m.Gives s r := by
  cases m with
  | gaussNewton linear =>
    obtain ⟨s, hs, h⟩ := bind_eq_ok.mp h
    cases h
    have hverdict := (GaussNewton.run_halts linear s s.options.maxIterations.toNat
      .start).converged_iff
    exact ⟨s, hs, rfl, rfl, rfl, beq_iff_eq, hverdict, rfl, rfl⟩
  | bounded name optimiser =>
    obtain ⟨s, hs, h⟩ := bind_eq_ok.mp h
    obtain ⟨status, iterations, note, hsolve, hverdict⟩ := Bounded.solve_judged optimiser s
    rw [hsolve] at h
    cases h
    exact ⟨s, hs, rfl, rfl, rfl, beq_iff_eq, hverdict, rfl, rfl⟩

/-- A method keeps the names of points and circles, and the names of centers. -/
theorem solve_names {m : Method} {p : Problem} {r : Solution} (h : m.backend.solve p = .ok r) :
    r.vertices.map (·.id) = p.vertices.map (·.id) ∧
      r.rings.map (fun c => (c.id, c.center)) = p.rings.map fun c => (c.id, c.center) := by
  obtain ⟨s, hs, hr⟩ := solve_eq_ok h
  obtain ⟨hsvs, hsrs, _⟩ := System.compile_eq_ok hs
  rw [hr.vertices, hr.rings, s.solution_vertexIds, s.solution_ringIds, hsvs, hsrs]
  exact ⟨rfl, rfl⟩

/-- A method fails only where the problem does not compile. -/
theorem solve_eq_error {m : Method} {p : Problem} {e : Error}
    (h : m.backend.solve p = .error e) : p.system = .error e := by
  cases m with
  | gaussNewton linear =>
    rcases bind_eq_error.mp h with h | ⟨s, _, h⟩
    · exact h
    · cases h
  | bounded name optimiser =>
    rcases bind_eq_error.mp h with h | ⟨s, _, h⟩
    · exact h
    · cases h

end Method

/-! ## Choosing a method -/

/-- The method that the settings and the options ask for: the least squares method by its name, and
Gauss–Newton in every other case. -/
def Method.chosen (flags : Flags) (options : Options Float) : Method :=
  if (Selection.requestedName flags options).1 = "scipy_trf" then
    .bounded "scipy_trf" (Fit.optimiser "trf")
  else .gaussNewton floatSolver

theorem Selection.choose_backend (flags : Flags) (options : Options Float) :
    (choose none flags options).backend = (Method.chosen flags options).backend := by
  unfold choose Method.chosen
  dsimp only
  generalize (requestedName flags options).1 = name
  by_cases htrf : name = "scipy_trf"
  · subst htrf
    have hfind : Backend.find? "scipy_trf" = some (Backend.leastSquares "trf") := rfl
    rw [hfind]
    rfl
  · rw [if_neg htrf]
    by_cases hgn : name = "gauss_newton"
    · subst hgn
      have hfind : Backend.find? "gauss_newton" = some Backend.gaussNewton := rfl
      rw [hfind]
      rfl
    · -- an unknown name falls back to Gauss–Newton
      have hfind : Backend.find? name = none := by
        refine List.find?_eq_none.mpr fun b hb => ?_
        simp only [Backend.registered, List.mem_cons, List.not_mem_nil, or_false] at hb
        rcases hb with rfl | rfl
        · simpa [Backend.gaussNewton] using fun h => hgn h.symm
        · simpa [Backend.leastSquares, Backend.bounded] using fun h => htrf h.symm
      rw [hfind]
      rfl

namespace Solver

/-- The parameters of a solve: those given, or else the standard ones. -/
def chosen (options : Option (Options Float)) : Options Float := options.getD .standard

/-- The method of a solve. -/
def method (flags : Flags) (options : Option (Options Float)) : Method :=
  .chosen flags (chosen options)

/-- The problem that a solve hands to a method. -/
def problem (g : Graph Float) (cs : List Constraint) (options : Option (Options Float)) : Problem :=
  ⟨g.vertices, g.edges, g.rings, active cs, chosen options⟩

/-- A solve without constraints gives everything back; any other gives the result of the chosen
method, with a note on the choice. -/
theorem solve_eq (flags : Flags) (g : Graph Float) (cs : List Constraint)
    (options : Option (Options Float)) :
    solve {} flags g cs options =
      if (active cs).isEmpty then .ok (unconstrained g.vertices g.rings)
      else
        let selection := Selection.choose none flags (chosen options)
        (selection.backend.solve (problem g cs options)).map selection.annotate := by
  have hchosen : (options <|> none).getD Options.standard = chosen options := by
    cases options <;> rfl
  unfold solve
  simp only [hchosen]
  rfl

/-- A solve that had something to solve gives the result of the method that is chosen, with a note
on the choice. -/
theorem solve_eq_ok {flags : Flags} {g : Graph Float} {cs : List Constraint}
    {options : Option (Options Float)} {r : Solution} (h : solve {} flags g cs options = .ok r)
    (hstatus : r.status ≠ .noConstraints) :
    ∃ found, (method flags options).backend.solve (problem g cs options) = .ok found ∧
      r.vertices = found.vertices ∧ r.rings = found.rings ∧ r.status = found.status ∧
        r.error = found.error ∧ r.residualCount = found.residualCount := by
  rw [solve_eq] at h
  split at h
  · cases h
    exact absurd rfl hstatus
  · dsimp only at h
    obtain ⟨found, hfound, h⟩ := map_eq_ok.mp h
    rw [Selection.choose_backend] at hfound
    exact ⟨found, hfound, by rw [← h]; exact ⟨rfl, rfl, rfl, rfl, rfl⟩⟩

end Solver

end Drafting
