import Drafting.Proofs.Dangling
import Drafting.Proofs.IterationCap
import Drafting.Proofs.Satisfaction

/-!
Where the built-in methods agree. Both compile the problem first and fail with it, so that a name
without a referent is the same error to both. Where the residuals are small at the initial state,
Gauss–Newton finds so in its loop, or after the loop if it may take no step, and the bounded methods
before they ask the optimiser; all of them return the initial state with the same account of it.
-/

namespace Drafting

open Scalar

/-! ## Satisfied systems -/

section Satisfied

variable {α : Type} [Scalar α] {n k : Nat} {s : System α n k}

theorem GaussNewton.solve_of_small (linear : LinearSolver α)
    (hsmall : smallAt s s.initial = true) :
    solve linear s = outcome s ⟨s.initial, 0, .converged⟩ :=
  Reached.start.outcome_of_small hsmall (Nat.zero_le _)

/-- In the modes of the initial state a bounded method gives the outcome that Gauss–Newton gives
there. -/
theorem Bounded.solve_of_small (optimiser : Fit.Optimiser α)
    (hsmall : GaussNewton.smallAt s s.initial = true) :
    solve optimiser s = (GaussNewton.outcome s ⟨s.initial, 0, .converged⟩, .settled) := by
  have hrms : lt (rms (s.residuals s.initial (s.modes s.initial))) s.options.tolerance = true :=
    hsmall
  have hstatus : ∀ error, GaussNewton.finalStatus s .converged error = .converged :=
    fun error => by simp [GaussNewton.finalStatus]
  simp only [solve, hrms, Bool.or_true, if_true, outcome, GaussNewton.outcome, hstatus]

end Satisfied

/-! ## Names without referents -/

section Missing

variable {α : Type} {n k : Nat} {vs : Vector (Vertex α) n} {edges : List Edge}
  {rs : Vector (Ring α) k} {owner : String}

theorem Absent.resolvePoint_ne_ok {q : Value} (h : Absent vs.toList q) (i : Fin n) :
    resolvePoint vs owner q ≠ .ok i := by
  intro hi
  obtain ⟨hlt, heq, _⟩ := List.findIdx?_eq_some_iff_getElem.mp (resolvePoint_eq_ok.mp hi).2
  rw [h _ (List.getElem_mem hlt)] at heq
  cases heq

/-- A constraint that lacks something does not have referents for all it names. -/
theorem Constraint.Lacks.not_resolves {c : Constraint} (h : c.Lacks vs.toList edges rs.toList) :
    ¬ c.Resolves vs edges rs := by
  intro hc
  cases h with
  | point hq hmissing =>
    obtain ⟨i, hi⟩ := hc.points _ hq
    exact hmissing.resolvePoint_ne_ok i hi
  | line hq hmissing =>
    obtain ⟨l, hl⟩ := hc.lines _ hq
    obtain ⟨e, he, _⟩ := resolveLine_ends hl
    have hid := List.find?_some he
    rw [hmissing e (List.mem_of_find?_eq_some he)] at hid
    cases hid
  | lineEnd hq he hmissing =>
    obtain ⟨l, hl⟩ := hc.lines _ hq
    obtain ⟨e', he', hp1, hp2⟩ := resolveLine_ends hl
    rw [he] at he'
    cases he'
    rcases hmissing with hmissing | hmissing
    · exact hmissing.resolvePoint_ne_ok _ hp1
    · exact hmissing.resolvePoint_ne_ok _ hp2
  | circle hq hmissing =>
    obtain ⟨d, hd⟩ := hc.circles _ hq
    obtain ⟨r, hr, _⟩ := resolveCircle_center hd
    have hid := List.find?_some hr
    rw [hmissing r (List.mem_of_find?_eq_some hr)] at hid
    cases hid
  | center hq hr hmissing =>
    obtain ⟨d, hd⟩ := hc.circles _ hq
    obtain ⟨r', hr', hcenter⟩ := resolveCircle_center hd
    rw [hr] at hr'
    cases hr'
    exact hmissing.resolvePoint_ne_ok _ hcenter

end Missing

/-- A well-formed problem fails for nothing but a name without a referent. -/
theorem Problem.WellFormed.system_onlyDangling {p : Problem} (hp : p.WellFormed) (e : Error)
    (h : p.system = .error e) : e.isDangling = true := by
  have hfirst := List.mem_of_head? ((hp.failsFirst e).mp h)
  obtain ⟨c, _, he⟩ := List.mem_flatMap.mp hfirst
  obtain ⟨what, q, _, rfl⟩ := Constraint.mem_missing e he
  rfl

/-! ## The methods -/

/-- **The built-in methods agree** on satisfied systems, whatever the cap on steps and however
linear systems are solved: where the residuals are small at the initial state, all return the same
converged result after no steps, up to the message. They fail alike where an enabled constraint names
something that is not there. -/
theorem backends_agree (p : Problem) :
    (∀ error, p.startError = .ok error → lt error p.options.tolerance = true →
      ∃ r, (∀ linear, (Backend.gaussNewtonWith linear).solve p = .ok r) ∧
        r.status = .converged ∧ r.success = true ∧ r.iterations = 0 ∧ r.error = error ∧
        ∀ method, (Backend.leastSquares method).solve p =
          .ok { r with message := Bounded.Note.settled.message }) ∧
    ((∃ c ∈ p.constraints, c.isEnabled = true ∧ c.Lacks p.vertices p.edges p.rings) →
      ∃ e, (p.WellFormed → e.isDangling = true) ∧
        (∀ linear, (Backend.gaussNewtonWith linear).solve p = .error e) ∧
        ∀ method, (Backend.leastSquares method).solve p = .error e) := by
  constructor
  · intro error herror hsmall
    obtain ⟨r, hresiduals, rfl⟩ := map_eq_ok.mp herror
    obtain ⟨s, hs, rfl⟩ := map_eq_ok.mp hresiduals
    obtain ⟨_, _, hoptions, _⟩ := System.compile_eq_ok hs
    have hinitial : GaussNewton.smallAt s s.initial = true := by
      rw [GaussNewton.smallAt, hoptions]
      exact hsmall
    have hgauss : ∀ linear, (Backend.gaussNewtonWith linear).solve p =
        .ok ((GaussNewton.outcome s ⟨s.initial, 0, .converged⟩).solution
          (GaussNewton.message (GaussNewton.outcome s ⟨s.initial, 0, .converged⟩))) := by
      intro linear
      refine bind_eq_ok.mpr ⟨s, hs, ?_⟩
      rw [GaussNewton.solve_of_small linear hinitial]
      rfl
    refine ⟨_, hgauss, ?_, ?_, rfl, rfl, fun method => ?_⟩
    · simp [Outcome.solution, GaussNewton.outcome, GaussNewton.finalStatus]
    · simp [Outcome.solution, GaussNewton.outcome, GaussNewton.finalStatus]
    · refine bind_eq_ok.mpr ⟨s, hs, ?_⟩
      rw [Bounded.solve_of_small _ hinitial]
      rfl
  · rintro ⟨c, hc, henabled, hlacks⟩
    cases hs : p.system with
    | ok s =>
      have hlacks : c.Lacks p.vertexVector.toList p.edges p.ringVector.toList := hlacks
      exact absurd (System.compile_resolves hs hc henabled) hlacks.not_resolves
    | error e =>
      exact ⟨e, fun hp => hp.system_onlyDangling e hs, fun linear => bind_eq_error.mpr (.inl hs),
        fun method => bind_eq_error.mpr (.inl hs)⟩

/-- Two points at the same height and a circle that is too small, with a constraint and a negative
cap on steps. -/
def pairWith (c : Constraint) : Problem where
  vertices := [{ id := .text "p", x := 0.0, y := 2.0 }, { id := .text "q", x := 10.0, y := 2.0 }]
  edges := []
  rings := [{ id := .text "k", center := .text "q", radius := 0.0 }]
  constraints := [c]
  options := { Options.standard with maxIterations := -3 }

/-- The points are to be at the same height, as they are. -/
def levelPair : Problem :=
  pairWith { kind := .horizontal, id := .text "c", points := [.text "p", .text "q"] }

/-- A circle that is not there is to have a radius. -/
def absentCircle : Problem :=
  pairWith { kind := .radius, id := .text "c", circles := [.text "m"], value := .float 4.0 }

theorem absentCircle_wellFormed : absentCircle.WellFormed where
  vertices := by decide
  edges := by decide
  rings := by decide
  references := by decide
  targets c hc _ := ⟨4.0, by rw [List.mem_singleton.mp hc]; rfl⟩

theorem backends_agree_pair :
    (∃ r, Backend.gaussNewton.solve levelPair = .ok r ∧ r.status = .converged ∧
      ∀ method, (Backend.leastSquares method).solve levelPair =
        .ok { r with message := Bounded.Note.settled.message }) ∧
    ∃ e, e.isDangling = true ∧ Backend.gaussNewton.solve absentCircle = .error e ∧
      ∀ method, (Backend.leastSquares method).solve absentCircle = .error e := by
  constructor
  · have hsmall : (match levelPair.startError with
        | .ok error => lt error levelPair.options.tolerance
        | .error _ => false) = true := by decide +kernel
    split at hsmall
    case h_2 => cases hsmall
    case h_1 error herror =>
      obtain ⟨r, hr, hstatus, _, _, _, hmethods⟩ :=
        (backends_agree levelPair).1 error herror hsmall
      exact ⟨r, hr floatSolver, hstatus, hmethods⟩
  · obtain ⟨e, hdangling, hfails⟩ := (backends_agree absentCircle).2
      ⟨_, List.mem_singleton.mpr rfl, rfl,
        .circle (List.mem_singleton.mpr rfl) (by decide +kernel)⟩
    exact ⟨e, hdangling absentCircle_wellFormed, hfails.1 floatSolver, hfails.2⟩

end Drafting
