import Drafting.Proofs.Verdict

/-!
The cap on the number of steps. The Gauss–Newton loop looks at the cap only to see whether it may
take another step: systems that differ in the cap alone lead from state to state in the same way.
So a run passes through every state that is reached by no more steps than it may take.

It follows that a run which ended before its steps were used up ends in the same way under any
larger cap. A run that used up its steps where the residuals are small was told so afterwards; under
a larger cap the loop itself would find them small there, and the outcome is the same.
-/

namespace Drafting

variable {α : Type} {n k : Nat}

/-- The system with another cap. -/
def System.capped (s : System α n k) (cap : Int) : System α n k :=
  { s with options := { s.options with maxIterations := cap } }

/-- The problem with another cap. -/
def Problem.capped (p : Problem) (cap : Int) : Problem :=
  { p with options := { p.options with maxIterations := cap } }

/-- Compiling does not look at the cap. -/
theorem Problem.system_capped {p : Problem} {s : System Float p.vertices.length p.rings.length}
    (hs : p.system = .ok s) (cap : Int) : (p.capped cap).system = .ok (s.capped cap) := by
  obtain ⟨keys, hkeys, hs⟩ := bind_eq_ok.mp hs
  obtain ⟨parts, hparts, hs⟩ := bind_eq_ok.mp hs
  cases hs
  exact bind_eq_ok.mpr ⟨keys, hkeys, bind_eq_ok.mpr ⟨parts, hparts, rfl⟩⟩

namespace GaussNewton

variable [Scalar α] {linear : LinearSolver α} {s : System α n k}

/-! ## Systems that differ in the cap -/

theorem run_capped (linear : LinearSolver α) (s : System α n k) (cap : Int) (fuel : Nat)
    (x : State α n k) (count : Nat) :
    run linear (s.capped cap) fuel x count = run linear s fuel x count := by
  induction fuel generalizing x count with
  | zero => rfl
  | succ fuel ih =>
    have hmove : move linear (s.capped cap) x = move linear s x := rfl
    simp only [run, hmove, ih]

theorem solve_capped (linear : LinearSolver α) (s : System α n k) (cap : Int) :
    solve linear (s.capped cap) = outcome s (run linear s cap.toNat s.initial 0) := by
  unfold solve
  rw [run_capped]
  rfl

theorem Reached.capped {count : Nat} {x : State α n k} (h : Reached linear s count x)
    (cap : Int) : Reached linear (s.capped cap) count x := by
  induction h with
  | start => exact .start
  | next _ hlarge hstep hfinite ih => exact .next ih hlarge hstep hfinite

/-! ## Passing through a state -/

theorem run_succ_of_small {x : State α n k} (hsmall : smallAt s x = true) (fuel count : Nat) :
    run linear s (fuel + 1) x count = ⟨x, count, .converged⟩ := by
  have hleads := move_leads linear s x
  unfold run
  generalize move linear s x = m at hleads ⊢
  cases hleads with
  | satisfied => rfl
  | blocked hlarge | onward hlarge => simp [hsmall] at hlarge

theorem run_succ_of_stuck {x : State α n k} (hlarge : smallAt s x = false)
    (hstuck : Stuck linear s x) (fuel count : Nat) :
    run linear s (fuel + 1) x count = ⟨x, count, .diverged⟩ := by
  have hleads := move_leads linear s x
  unfold run
  generalize move linear s x = m at hleads ⊢
  cases hleads with
  | satisfied hsmall => simp [hsmall] at hlarge
  | blocked => rfl
  | onward _ hstep hfinite => simp [hstuck _ hstep] at hfinite

theorem run_succ_of_step {x dx : State α n k} (hlarge : smallAt s x = false)
    (hstep : step? linear s x = some dx) (hfinite : NormalEquations.allFinite dx = true)
    (fuel count : Nat) :
    run linear s (fuel + 1) x count = run linear s fuel (moved s x dx) (count + 1) := by
  have hleads := move_leads linear s x
  rw [run]
  generalize move linear s x = m at hleads ⊢
  cases hleads with
  | satisfied hsmall => simp [hsmall] at hlarge
  | blocked _ hstuck => simp [hstuck _ hstep] at hfinite
  | onward _ hstep' _ =>
    obtain rfl := Option.some.inj (hstep.symm.trans hstep')
    rfl

/-- **A run passes through what is reached**: from there it goes on with the steps that are left. -/
theorem Reached.run_eq {count : Nat} {x : State α n k} (h : Reached linear s count x) :
    ∀ rest, run linear s (count + rest) s.initial 0 = run linear s rest x count := by
  induction h with
  | start =>
    intro rest
    rw [Nat.zero_add]
  | @next count x dx _ hlarge hstep hfinite ih =>
    intro rest
    have hsum : count + 1 + rest = count + (rest + 1) := by omega
    rw [hsum, ih, run_succ_of_step hlarge hstep hfinite]

/-- A run that may take `cap` steps passes through a state after `count` accepted ones. -/
structure PassesThrough (linear : LinearSolver α) (s : System α n k) (cap count : Nat)
    (x : State α n k) : Prop where
  reached : Reached linear s count x
  count_le : count ≤ cap
  onward : run linear s cap s.initial 0 = run linear s (cap - count) x count

theorem Reached.passesThrough {cap count : Nat} {x : State α n k} (h : Reached linear s count x)
    (hle : count ≤ cap) : PassesThrough linear s cap count x := by
  refine ⟨h, hle, ?_⟩
  rw [← h.run_eq, Nat.add_sub_cancel' hle]

/-! ## Larger caps -/

/-- Where the residuals are small a run ends with the same outcome, whether it may go on or not. -/
theorem Reached.outcome_of_small {cap count : Nat} {x : State α n k}
    (h : Reached linear s count x) (hsmall : smallAt s x = true) (hle : count ≤ cap) :
    outcome s (run linear s cap s.initial 0) = outcome s ⟨x, count, .converged⟩ := by
  rw [(h.passesThrough hle).onward]
  cases cap - count with
  | zero =>
    -- no step is left: the residuals are judged after the loop
    have hstatus : finalStatus s .maxIterations (errorAt s x) =
        finalStatus s .converged (errorAt s x) := by
      have hlt : Scalar.lt (errorAt s x) s.options.tolerance = true := hsmall
      simp [finalStatus, hlt]
    unfold errorAt at hstatus
    simp only [run, outcome, hstatus]
  | succ rest => rw [run_succ_of_small hsmall]

/-- **A run that ended keeps its outcome** under every larger cap. -/
theorem Halts.outcome_of_le {cap cap' : Nat} {halt : Halt α n k} (h : Halts linear s cap halt)
    (hstatus : (outcome s halt).status ≠ .maxIterations) (hle : cap ≤ cap') :
    outcome s (run linear s cap' s.initial 0) = outcome s halt := by
  cases h with
  | converged hx hcount hsmall => exact hx.outcome_of_small hsmall (by omega)
  | @diverged x count hx hcount hlarge hstuck =>
    rw [(hx.passesThrough (by omega : count ≤ cap')).onward]
    have hrest : cap' - count = cap' - count - 1 + 1 := by omega
    rw [hrest, run_succ_of_stuck hlarge hstuck]
  | @exhausted x hx =>
    have hsmall : smallAt s x = true := by
      by_contra hlarge
      apply hstatus
      show finalStatus s .maxIterations (errorAt s x) = .maxIterations
      exact if_neg fun hboth => hlarge hboth.2
    rw [hx.outcome_of_small hsmall hle, ← hx.outcome_of_small hsmall (Nat.le_refl cap)]
    have hrun : run linear s cap s.initial 0 = ⟨x, cap, .maxIterations⟩ := by
      rw [(hx.passesThrough (Nat.le_refl cap)).onward, Nat.sub_self]
      rfl
    rw [hrun]

end GaussNewton

open GaussNewton

/-- **Raising the cap changes no finished run.** Of two runs of the Gauss–Newton method on problems
that differ in the cap alone, if the one with the smaller cap converges or diverges, the other
returns the very same result. If it uses up its steps, the other passes through the state at which
its result was taken, after as many accepted steps. Caps may be negative, which allows no step, and
the linear systems may be solved in any way. -/
theorem raised_cap_keeps_run (linear : LinearSolver Float) (p : Problem) {m n : Int} (hmn : m ≤ n)
    {r : Solution} (h : (Backend.gaussNewtonWith linear).solve (p.capped m) = .ok r) :
    (r.status = .converged ∨ r.status = .diverged →
      (Backend.gaussNewtonWith linear).solve (p.capped n) = .ok r) ∧
    (r.status = .maxIterations → ∃ s x, Accounts linear (p.capped m) r s x ∧
      (r.iterations : Int) = max 0 m ∧ (p.capped n).system = .ok (s.capped n) ∧
      PassesThrough linear (s.capped n) n.toNat r.iterations x) := by
  constructor
  · intro hended
    obtain ⟨s, hs, h⟩ := bind_eq_ok.mp h
    cases h
    obtain ⟨_, _, hoptions, _⟩ := System.compile_eq_ok hs
    obtain ⟨halt, hhalt, hsolve⟩ := solve_halts linear s
    have hcap : s.options.maxIterations.toNat ≤ n.toNat := by
      rw [hoptions]
      exact Int.toNat_le_toNat hmn
    have hstatus : (outcome s halt).status ≠ .maxIterations := by
      rw [← hsolve]
      intro hmax
      rcases hended with hended | hended <;> cases hmax.symm.trans hended
    -- the system of the larger cap is that of the smaller one but for the cap
    have hsystem : (p.capped n).system = .ok (s.capped n) := Problem.system_capped hs n
    have hsame : solve linear (s.capped n) = solve linear s := by
      rw [solve_capped, hsolve]
      exact hhalt.outcome_of_le hstatus hcap
    have hsolution := congrArg
      (fun o : Outcome Float p.vertices.length p.rings.length => o.solution (message o)) hsame
    exact bind_eq_ok.mpr ⟨s.capped n, hsystem, congrArg Except.ok hsolution⟩
  · intro hstatus
    obtain ⟨s, x, haccounts⟩ := solve_accounts h
    have hiterations : (r.iterations : Int) = max 0 m := haccounts.exhausted hstatus
    refine ⟨s, x, haccounts, hiterations, Problem.system_capped haccounts.system n, ?_⟩
    exact (haccounts.reached.capped n).passesThrough (by omega)

/-- A point that is to be where another one is. The method needs three steps. -/
def approach : Problem where
  vertices :=
    [{ id := .text "p", x := 0.0, y := 0.0 },
      { id := .text "q", x := 10.0, y := 3.0, fixed := .bool true }]
  edges := []
  rings := []
  constraints := [.coincidence (.text "c") (.text "p") (.text "q")]
  options := .standard

/-- Three steps will just do, and more change nothing. Two will not do: they are taken in any case.
Where the next step is not finite, any number of steps ends there. -/
theorem raised_cap_keeps_run_approach :
    (∃ r, Backend.gaussNewton.solve (approach.capped 3) = .ok r ∧ r.status = .converged ∧
      r.iterations = 3 ∧ Backend.gaussNewton.solve (approach.capped 1000000) = .ok r) ∧
    (∃ r s x, Backend.gaussNewton.solve (approach.capped 2) = .ok r ∧
      r.status = .maxIterations ∧ (approach.capped 3).system = .ok s ∧
      PassesThrough floatSolver s 3 2 x) ∧
    ∃ r, Backend.gaussNewton.solve (runaway.capped 2) = .ok r ∧ r.status = .diverged ∧
      Backend.gaussNewton.solve (runaway.capped 1000000) = .ok r := by
  refine ⟨?_, ?_, ?_⟩
  · have hrun : (match Backend.gaussNewton.solve (approach.capped 3) with
        | .ok r => decide (r.status = .converged ∧ r.iterations = 3)
        | .error _ => false) = true := by decide +kernel
    split at hrun
    · rename_i r hr
      obtain ⟨hstatus, hiterations⟩ := of_decide_eq_true hrun
      have hmore := (raised_cap_keeps_run floatSolver approach (by decide : (3 : Int) ≤ 1000000) hr).1
      exact ⟨r, hr, hstatus, hiterations, hmore (.inl hstatus)⟩
    · cases hrun
  · have hrun : (match Backend.gaussNewton.solve (approach.capped 2) with
        | .ok r => decide (r.status = .maxIterations)
        | .error _ => false) = true := by decide +kernel
    split at hrun
    · rename_i r hr
      have hstatus := of_decide_eq_true hrun
      obtain ⟨s, x, _, hiterations, hsystem, hpasses⟩ :=
        (raised_cap_keeps_run floatSolver approach (by decide : (2 : Int) ≤ 3) hr).2 hstatus
      have htwo : r.iterations = 2 := by omega
      rw [htwo] at hpasses
      exact ⟨r, s.capped 3, x, hr, hstatus, hsystem, hpasses⟩
    · cases hrun
  · have hrun : (match Backend.gaussNewton.solve (runaway.capped 2) with
        | .ok r => decide (r.status = .diverged)
        | .error _ => false) = true := by decide +kernel
    split at hrun
    · rename_i r hr
      have hstatus := of_decide_eq_true hrun
      have hmore := (raised_cap_keeps_run floatSolver runaway (by decide : (2 : Int) ≤ 1000000) hr).1
      exact ⟨r, hr, hstatus, hmore (.inr hstatus)⟩
    · cases hrun

end Drafting
