import Drafting.Constraint.Make
import Drafting.Proofs.FinalState

/-!
What a result says of its solve. A solve can end in many ways: there was nothing to do, the
residuals became small, a step or an answer was not finite, the optimiser gave up, the steps were
used up. In each of them the error is what is left of the residuals at the final state, and success,
status and error tell the same.

The Gauss–Newton method counts its steps. Its result is taken at the state that was reached by that
many steps, and where it says that it diverged, the next step from there is not finite.
-/

namespace Drafting

open Scalar

namespace GaussNewton

/-- A result accounts for the run behind it: it is taken at a state of the run, the number of steps
is the number of those that led there, and the status tells why the run went no further. -/
structure Accounts (linear : LinearSolver Float) (p : Problem) (r : Solution)
    (s : System Float p.vertices.length p.rings.length)
    (x : State Float p.vertices.length p.rings.length) : Prop where
  system : p.system = .ok s
  reached : Reached linear s r.iterations x
  vertices : r.vertices = (s.solution x).1.toList
  rings : r.rings = (s.solution x).2.toList
  error : r.error = errorAt s x
  capped : (r.iterations : Int) ≤ max 0 p.options.maxIterations
  exhausted : r.status = .maxIterations → (r.iterations : Int) = max 0 p.options.maxIterations
  diverged : r.status = .diverged →
    (r.iterations : Int) < p.options.maxIterations ∧ Stuck linear s x

theorem solve_accounts {linear : LinearSolver Float} {p : Problem} {r : Solution}
    (h : (Backend.gaussNewtonWith linear).solve p = .ok r) : ∃ s x, Accounts linear p r s x := by
  obtain ⟨s, hs, h⟩ := bind_eq_ok.mp h
  cases h
  obtain ⟨_, _, hoptions, _⟩ := System.compile_eq_ok hs
  obtain ⟨halt, hhalt, hsolve⟩ := solve_halts linear s
  rw [hsolve]
  rw [hoptions] at hhalt
  -- a negative number of steps counts as none
  have hcap : (p.options.maxIterations.toNat : Int) = max 0 p.options.maxIterations := by omega
  refine ⟨s, halt.state, hs, hhalt.reached, rfl, rfl, rfl, ?_, ?_, ?_⟩
  · have hsteps := hhalt.steps_le
    show (halt.steps : Int) ≤ _
    omega
  · intro hstatus
    have hsteps := hhalt.steps_eq_of_maxIterations hstatus
    show (halt.steps : Int) = _
    omega
  · intro hstatus
    obtain ⟨hsteps, hstuck⟩ := hhalt.stuck_of_diverged hstatus
    refine ⟨?_, hstuck⟩
    show (halt.steps : Int) < _
    omega

end GaussNewton

/-- **Success, status and error agree.** Whatever method returns a result, with any linear solver or
optimiser, it is a success exactly if its status is that it converged, and that exactly if its error
is below the tolerance. A result of the Gauss–Newton method accounts for the run behind it. -/
theorem verdict_agrees :
    (∀ (m : Method) (p : Problem) (r : Solution), m.backend.solve p = .ok r →
      (r.success = true ↔ r.status = .converged) ∧
        (r.status = .converged ↔ lt r.error p.options.tolerance = true)) ∧
    ∀ (linear : LinearSolver Float) (p : Problem) (r : Solution),
      (Backend.gaussNewtonWith linear).solve p = .ok r →
        ∃ s x, GaussNewton.Accounts linear p r s x := by
  constructor
  · intro m p r h
    obtain ⟨s, hs, hr⟩ := Method.solve_eq_ok h
    obtain ⟨_, _, hoptions, _⟩ := System.compile_eq_ok hs
    exact ⟨hr.success, hoptions ▸ hr.verdict⟩
  · intro linear p r h
    exact GaussNewton.solve_accounts h

/-- A point that is to be far away and near at once: the first step goes so far that the square of
the distance is infinite. -/
def runaway : Problem where
  vertices :=
    [{ id := .text "p", x := 0.0, y := 0.0 },
      { id := .text "far", x := 1.0e160, y := 0.0, fixed := .bool true },
      { id := .text "near", x := 1.0, y := 0.0, fixed := .bool true }]
  edges := []
  rings := []
  constraints :=
    [.coincidence (.text "c") (.text "p") (.text "far"),
      .distance (.text "d") (.text "p") (.text "near") (.float 1.0)]
  options := { Options.standard with differenceStep := 1.0e150 }

/-- The method takes one step and is stuck. An optimiser that answers with what is no number is not
believed. -/
theorem verdict_agrees_runaway :
    (∃ r s x, Backend.gaussNewton.solve runaway = .ok r ∧ r.status = .diverged ∧
      r.success = false ∧ lt r.error runaway.options.tolerance = false ∧
      runaway.system = .ok s ∧ GaussNewton.Reached floatSolver s 1 x ∧
      GaussNewton.Stuck floatSolver s x) ∧
    ∃ r, (Method.bounded "any" fun d _ => .ok ⟨.replicate d (0.0 / 0.0), 1, 1⟩).backend.solve
        runaway = .ok r ∧
      r.status = .diverged ∧ lt r.error runaway.options.tolerance = false := by
  constructor
  · have hrun : (match Backend.gaussNewton.solve runaway with
        | .ok r => decide (r.status = .diverged ∧ r.iterations = 1)
        | .error _ => false) = true := by decide +kernel
    split at hrun
    · rename_i r hr
      obtain ⟨hstatus, hiterations⟩ := of_decide_eq_true hrun
      obtain ⟨hsuccess, hverdict⟩ := verdict_agrees.1 (.gaussNewton floatSolver) runaway r hr
      obtain ⟨s, x, haccounts⟩ := verdict_agrees.2 floatSolver runaway r hr
      rw [hstatus] at hsuccess hverdict
      refine ⟨r, s, x, hr, hstatus, by simpa using hsuccess, by simpa using hverdict,
        haccounts.system, ?_, (haccounts.diverged hstatus).2⟩
      rw [← hiterations]
      exact haccounts.reached
    · cases hrun
  · have hrun : (match (Method.bounded "any" fun d _ =>
          .ok ⟨.replicate d (0.0 / 0.0), 1, 1⟩).backend.solve runaway with
        | .ok r => decide (r.status = .diverged)
        | .error _ => false) = true := by decide +kernel
    split at hrun
    · rename_i r hr
      have hstatus := of_decide_eq_true hrun
      have hverdict := (verdict_agrees.1 _ runaway r hr).2
      rw [hstatus] at hverdict
      exact ⟨r, hr, hstatus, by simpa using hverdict⟩
    · cases hrun

end Drafting
