import Drafting.Solver.GaussNewton

/-!
The Gauss–Newton loop, step by step. At a state the loop looks at what is left of the residuals, in
the modes chosen there. Where that is small it ends; elsewhere it takes the step that solves the
normal equations, or is stuck if that step is not finite.

A state is reached by a number of steps if the loop takes all of them. A run stops where it says,
after the number of steps it says, and the way it ended tells what is the case there: this is the
one induction on the loop, and all that is known of a run is read off it.
-/

namespace Drafting.GaussNewton

open Scalar

variable {α : Type} [Scalar α] {n k : Nat}

/-! ## One step -/

/-- What is left of the residuals at a state, in the modes chosen there. -/
def errorAt (s : System α n k) (x : State α n k) : α := rms (s.residuals x (s.modes x))

/-- Whether the residuals at a state are small. -/
def smallAt (s : System α n k) (x : State α n k) : Bool := lt (errorAt s x) s.options.tolerance

/-- The step at a state; none where the equations for it are not finite. -/
def step? (linear : LinearSolver α) (s : System α n k) (x : State α n k) :
    Option (State α n k) :=
  let modes := s.modes x
  let r := s.residuals x modes
  NormalEquations.step? linear (s.jacobian x r modes) r s.options.damping s.mask

/-- The step at a state is not finite: there is none, or one of its numbers is not. -/
def Stuck (linear : LinearSolver α) (s : System α n k) (x : State α n k) : Prop :=
  ∀ dx, step? linear s x = some dx → NormalEquations.allFinite dx = false

/-- Where a state leads, and what is the case there. -/
inductive Leads (linear : LinearSolver α) (s : System α n k) (x : State α n k) :
    Move α n k → Prop where
  | satisfied (hsmall : smallAt s x = true) : Leads linear s x .satisfied
  | blocked (hlarge : smallAt s x = false) (hstuck : Stuck linear s x) :
      Leads linear s x .blocked
  | onward {dx : State α n k} (hlarge : smallAt s x = false) (hstep : step? linear s x = some dx)
      (hfinite : NormalEquations.allFinite dx = true) : Leads linear s x (.to (moved s x dx))

theorem move_leads (linear : LinearSolver α) (s : System α n k) (x : State α n k) :
    Leads linear s x (move linear s x) := by
  have hmove : move linear s x =
      if smallAt s x then .satisfied
      else
        match step? linear s x with
        | some dx => if NormalEquations.allFinite dx then .to (moved s x dx) else .blocked
        | none => .blocked := rfl
  rw [hmove]
  by_cases hsmall : smallAt s x = true
  · rw [if_pos hsmall]
    exact .satisfied hsmall
  · rw [if_neg hsmall]
    have hlarge : smallAt s x = false := by simpa using hsmall
    cases hstep : step? linear s x with
    | none => exact .blocked hlarge fun dx hdx => by simp [hstep] at hdx
    | some dx =>
      dsimp only
      by_cases hfinite : NormalEquations.allFinite dx = true
      · rw [if_pos hfinite]
        exact .onward hlarge hstep hfinite
      · rw [if_neg hfinite]
        refine .blocked hlarge fun dx' hdx' => ?_
        obtain rfl : dx = dx' := Option.some.inj (hstep.symm.trans hdx')
        simpa using hfinite

/-! ## Runs -/

/-- A state is reached from the initial one by a number of accepted steps: finite ones, each taken
where the residuals are not small. -/
inductive Reached (linear : LinearSolver α) (s : System α n k) : Nat → State α n k → Prop where
  | start : Reached linear s 0 s.initial
  | next {count : Nat} {x dx : State α n k} (h : Reached linear s count x)
      (hlarge : smallAt s x = false) (hstep : step? linear s x = some dx)
      (hfinite : NormalEquations.allFinite dx = true) :
      Reached linear s (count + 1) (moved s x dx)

/-- What every step keeps holds of all that is reached. -/
theorem Reached.keeps {linear : LinearSolver α} {s : System α n k} {P : State α n k → Prop}
    (hstart : P s.initial) (hnext : ∀ x dx, P x → step? linear s x = some dx → P (moved s x dx))
    {count : Nat} {x : State α n k} (h : Reached linear s count x) : P x := by
  induction h with
  | start => exact hstart
  | next _ _ hstep _ ih => exact hnext _ _ ih hstep

/-- How a run that may take `cap` steps can end: where the residuals are small, where it is stuck,
or where its steps are used up. Only in the last case are all steps taken. -/
inductive Halts (linear : LinearSolver α) (s : System α n k) (cap : Nat) : Halt α n k → Prop where
  | converged {x : State α n k} {count : Nat} (hx : Reached linear s count x) (hcount : count < cap)
      (hsmall : smallAt s x = true) : Halts linear s cap ⟨x, count, .converged⟩
  | diverged {x : State α n k} {count : Nat} (hx : Reached linear s count x) (hcount : count < cap)
      (hlarge : smallAt s x = false) (hstuck : Stuck linear s x) :
      Halts linear s cap ⟨x, count, .diverged⟩
  | exhausted {x : State α n k} (hx : Reached linear s cap x) :
      Halts linear s cap ⟨x, cap, .maxIterations⟩

/-- **How a run ends**, from any state that was reached. -/
theorem run_halts (linear : LinearSolver α) (s : System α n k) (fuel : Nat) {x : State α n k}
    {count : Nat} (hx : Reached linear s count x) :
    Halts linear s (count + fuel) (run linear s fuel x count) := by
  induction fuel generalizing x count with
  | zero => exact .exhausted hx
  | succ fuel ih =>
    have hleads := move_leads linear s x
    unfold run
    generalize move linear s x = m at hleads ⊢
    cases hleads with
    | satisfied hsmall => exact .converged hx (by omega) hsmall
    | blocked hlarge hstuck => exact .diverged hx (by omega) hlarge hstuck
    | onward hlarge hstep hfinite =>
      have hcap : count + (fuel + 1) = count + 1 + fuel := by omega
      rw [hcap]
      exact ih (.next hx hlarge hstep hfinite)

theorem Halts.reached {linear : LinearSolver α} {s : System α n k} {cap : Nat} {halt : Halt α n k}
    (h : Halts linear s cap halt) : Reached linear s halt.steps halt.state := by
  cases h <;> assumption

theorem Halts.steps_le {linear : LinearSolver α} {s : System α n k} {cap : Nat} {halt : Halt α n k}
    (h : Halts linear s cap halt) : halt.steps ≤ cap := by
  cases h with
  | converged _ hcount => exact Nat.le_of_lt hcount
  | diverged _ hcount => exact Nat.le_of_lt hcount
  | exhausted => exact Nat.le_refl cap

/-! ## Outcomes -/

/-- The method gives the outcome where a run ended that may take as many steps as the options
say. -/
theorem solve_halts (linear : LinearSolver α) (s : System α n k) :
    ∃ halt, Halts linear s s.options.maxIterations.toNat halt ∧
      solve linear s = outcome s halt := by
  have h := run_halts linear s s.options.maxIterations.toNat .start
  rw [Nat.zero_add] at h
  exact ⟨_, h, rfl⟩

section Outcome

variable {linear : LinearSolver α} {s : System α n k} {cap : Nat} {halt : Halt α n k}
  (h : Halts linear s cap halt)
include h

/-- An outcome is called converged exactly if the residuals are small there. A run that used up its
steps is judged by the residuals once more, and one that is stuck was judged when it got there. -/
theorem Halts.converged_iff :
    (outcome s halt).status = .converged ↔ smallAt s halt.state = true := by
  change finalStatus s halt.status (errorAt s halt.state) = .converged ↔ _
  cases h with
  | converged _ _ hsmall => simp [finalStatus, hsmall]
  | diverged _ _ hlarge _ => simp [finalStatus, hlarge]
  | exhausted _ => simp [finalStatus, smallAt]

theorem Halts.steps_eq_of_maxIterations (hstatus : (outcome s halt).status = .maxIterations) :
    halt.steps = cap := by
  change finalStatus s halt.status (errorAt s halt.state) = .maxIterations at hstatus
  cases h with
  | converged => simp [finalStatus] at hstatus
  | diverged => simp [finalStatus] at hstatus
  | exhausted => rfl

theorem Halts.stuck_of_diverged (hstatus : (outcome s halt).status = .diverged) :
    halt.steps < cap ∧ Stuck linear s halt.state := by
  change finalStatus s halt.status (errorAt s halt.state) = .diverged at hstatus
  cases h with
  | converged => simp [finalStatus] at hstatus
  | diverged _ hcount _ hstuck => exact ⟨hcount, hstuck⟩
  | exhausted =>
    simp only [finalStatus] at hstatus
    split at hstatus <;> cases hstatus

end Outcome

end Drafting.GaussNewton
