import Drafting.Proofs.ErrorBoundary
import Drafting.Proofs.FinalState

/-!
Disabled constraints have no influence. The flag of a constraint is asked for in three places: when
a sketch decides whether its rectangles are to be kept along the axes, when a solver hands
constraints to a backend, and when constraints are compiled. None of them sees more of a list of
constraints than the enabled ones, in their order, whatever the others are: they may name what is
not there, hold points, or make no sense at all.

Everything here compares two runs, on lists with the same enabled constraints. That the disabled
ones can be deleted is the case where the second list has no others.
-/

namespace Drafting

namespace Solver

variable {cs ds : List Constraint}

theorem active_active (cs : List Constraint) : active (active cs) = active cs := by
  simp [active]

/-- Some constraint is enabled exactly if any are left. -/
theorem any_isEnabled_eq (cs : List Constraint) :
    cs.any (·.isEnabled) = !(active cs).isEmpty := by
  induction cs with
  | nil => rfl
  | cons c cs ih =>
    cases hc : c.isEnabled with
    | true => simp [active, hc]
    | false => simpa [active, hc] using ih

/-- A solver sees the enabled constraints only, with any backend. -/
theorem solve_congr (solver : Solver) (flags : Flags) (g : Graph Float)
    (options : Option (Options Float)) (h : active cs = active ds) :
    solver.solve flags g cs options = solver.solve flags g ds options := by
  unfold solve
  rw [h]

end Solver

/-- Compiling sees the enabled constraints only. -/
theorem System.compile_congr {α : Type} [Scalar α] {n k : Nat} {cs ds : List Constraint}
    (vs : Vector (Vertex α) n) (edges : List Edge) (rs : Vector (Ring α) k) (o : Options α)
    (h : Solver.active cs = Solver.active ds) :
    compile vs edges rs cs o = compile vs edges rs ds o := by
  have hfilter : cs.filter (·.isEnabled) = ds.filter (·.isEnabled) := h
  unfold compile
  rw [hfilter]

/-- The built-in methods see the enabled constraints only, also when they are called directly. -/
theorem Method.solve_congr (m : Method) (p : Problem) {ds : List Constraint}
    (h : Solver.active p.constraints = Solver.active ds) :
    m.backend.solve p = m.backend.solve { p with constraints := ds } := by
  have hsystem : p.system = Problem.system { p with constraints := ds } :=
    System.compile_congr p.vertexVector p.edges p.ringVector p.options h
  cases m with
  | gaussNewton linear => exact congrArg (· >>= _) hsystem
  | bounded name optimiser => exact congrArg (· >>= _) hsystem

namespace Sketch

/-- Two sketches differ in disabled constraints only, as far as a solve is concerned. -/
structure SameActive (s t : Sketch) : Prop where
  elements : t.elements = s.elements
  issued : t.issued = s.issued
  active : Solver.active t.constraints = Solver.active s.constraints

variable {s t : Sketch}

/-- Rectangles are kept along the axes in both or in neither. -/
theorem SameActive.keeping (h : SameActive s t) : t.keeping = s.keeping := by
  unfold Sketch.keeping
  rw [Solver.any_isEnabled_eq, Solver.any_isEnabled_eq, h.active, h.elements, h.issued]

theorem SameActive.written (h : SameActive s t) (r : Solution) : t.written r = s.written r := by
  unfold Sketch.written
  rw [h.elements]

/-- **Two runs**: sketches that differ in disabled constraints only come to the same solution and
the same elements, or fail with the same error. -/
theorem SameActive.cycle (h : SameActive s t) (flags : Flags) (options : Option (Options Float)) :
    t.cycle flags options = s.cycle flags options := by
  rw [cycle_eq, cycle_eq, h.elements, h.keeping, funext h.written]
  congr 1
  funext graph
  congr 1
  funext keep
  have hactive : Solver.active (t.constraints ++ keep) = Solver.active (s.constraints ++ keep) := by
    have hfilter := h.active
    unfold Solver.active at hfilter ⊢
    rw [List.filter_append, List.filter_append, hfilter]
  rw [Solver.solve_congr {} flags graph options hactive]

/-- The sketch without its disabled constraints. -/
def withoutDisabled (s : Sketch) : Sketch :=
  { s with constraints := s.constraints.filter (·.isEnabled) }

theorem withoutDisabled_sameActive (s : Sketch) : SameActive s s.withoutDisabled :=
  ⟨rfl, rfl, Solver.active_active s.constraints⟩

theorem solve_withoutDisabled (s : Sketch) (flags : Flags) (options : Option (Options Float)) :
    s.withoutDisabled.solve flags options =
      ((s.solve flags options).1.withoutDisabled, (s.solve flags options).2) := by
  unfold solve
  rw [s.withoutDisabled_sameActive.cycle]
  cases s.cycle flags options with
  | ok result => rfl
  | error e => rfl

end Sketch

/-- **Disabled constraints have no influence.** A sketch from which they were deleted before a solve
gives the same result, or fails with the same message, and is the same sketch afterwards but for
them; a solver gives the same with any backend, injected or selected; and so does each built-in
method by itself. -/
theorem disabled_no_influence :
    (∀ (s : Sketch) (flags : Flags) (options : Option (Options Float)),
      s.withoutDisabled.solve flags options =
        ((s.solve flags options).1.withoutDisabled, (s.solve flags options).2)) ∧
    (∀ (solver : Solver) (flags : Flags) (g : Graph Float) (cs : List Constraint)
        (options : Option (Options Float)),
      solver.solve flags g (cs.filter (·.isEnabled)) options =
        solver.solve flags g cs options) ∧
    ∀ (m : Method) (p : Problem),
      m.backend.solve { p with constraints := p.constraints.filter (·.isEnabled) } =
        m.backend.solve p := by
  refine ⟨Sketch.solve_withoutDisabled, fun solver flags g cs options => ?_, fun m p => ?_⟩
  · exact solver.solve_congr flags g options (Solver.active_active cs)
  · exact (m.solve_congr p (Solver.active_active p.constraints).symm).symm

end Drafting
