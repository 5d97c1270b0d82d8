import Mathlib.Algebra.GroupWithZero.Nat
import Drafting.Proofs.Evaluation
import Drafting.Proofs.FinalState

/-!
How many residuals there are. An equation has one to three of them, and in a given mode always the
same number: where geometry is degenerate the residual is zero, it is not left out. In given modes
the residuals of a system are therefore equally many at every state.

Difference quotients are taken in the modes of the state from which variables are moved. So the
residuals before and after a move match one by one, in every step of Gauss–Newton as well as in
every evaluation that a bounded optimiser may ask for.
-/

namespace Drafting

variable {α : Type} [Scalar α] {n k : Nat}

/-! ## Counting residuals -/

/-- The number of residuals of an equation in a mode. -/
def Equation.residualCount (mode : Option Mode) : Equation n k → Nat
  | samePoint .. | pointAtCenter .. | sameCenter .. | midpoint .. => 2
  | circleDistance .. => if mode = some .internal then 3 else 1
  | tangentCircles .. => if mode = some .concentric then 2 else 1
  | _ => 1

/-- The number of residuals of a system in given modes. -/
def System.residualCount (s : System α n k) (modes : List (Option Mode)) : Nat :=
  ((s.terms.zip modes).map fun (t, mode) => t.equation.residualCount mode).sum

theorem Equation.length_residuals (o : Options α) (x : Placement α n k) (target : α)
    (mode : Option Mode) (e : Equation n k) :
    (e.residuals o x target mode).length = e.residualCount mode := by
  cases e with
  | circleDistance c d =>
    unfold residuals circleDistanceResiduals residualCount
    dsimp only
    split
    · rfl
    · rename_i hmode
      rw [if_neg hmode]
      rfl
  | tangentCircles c d =>
    unfold residuals tangentCirclesResiduals residualCount
    dsimp only
    split
    · rfl
    · rfl
    · rename_i hmode
      rw [if_neg hmode]
      rfl
  | _ => rfl

theorem System.length_residuals (s : System α n k) (x : State α n k)
    (modes : List (Option Mode)) : (s.residuals x modes).length = s.residualCount modes := by
  unfold residuals residualCount
  rw [List.length_flatMap]
  simp only [Equation.length_residuals]

/-! ## Difference quotients -/

/-- The Jacobian at a state fits the residuals there: moving a variable changes no number of
residuals, so that every column has a quotient for every residual. -/
structure System.JacobianFits (s : System α n k) (x : State α n k) (modes : List (Option Mode)) :
    Prop where
  moved : ∀ j, (s.residuals (nudge x j s.options.differenceStep) modes).length =
    (s.residuals x modes).length
  columns : ∀ j, ((s.jacobian x (s.residuals x modes) modes).get j).length =
    (s.residuals x modes).length

theorem System.jacobianFits (s : System α n k) (x : State α n k) (modes : List (Option Mode)) :
    s.JacobianFits x modes := by
  have hmoved : ∀ j, (s.residuals (nudge x j s.options.differenceStep) modes).length =
      (s.residuals x modes).length := by
    intro j
    rw [s.length_residuals, s.length_residuals]
  refine ⟨hmoved, ?_⟩
  intro j
  rw [jacobian, get_ofFn, jacobianColumn]
  split
  · exact List.length_map ..
  · rw [List.length_zipWith, hmoved, Nat.min_self]

/-- The evaluations of a bounded method fit the residuals at the initial state: whatever point the
optimiser asks for, and wherever the method ends, there are as many. -/
structure Bounded.EvaluationsFit (optimiser : Fit.Optimiser α) (s : System α n k) : Prop where
  asked : ∀ z, ((problem s (s.modes s.initial)).residuals z).length =
    (s.residuals s.initial (s.modes s.initial)).length
  ended : (solve optimiser s).1.residualCount =
    (s.residuals s.initial (s.modes s.initial)).length

theorem Bounded.evaluationsFit (optimiser : Fit.Optimiser α) (s : System α n k) :
    EvaluationsFit optimiser s := by
  constructor
  · intro z
    unfold problem
    rw [s.length_residuals, s.length_residuals]
  · obtain ⟨status, iterations, note, hsolve, _⟩ := solve_judged optimiser s
    rw [hsolve]
    show (s.residuals _ _).length = _
    rw [s.length_residuals, s.length_residuals]

/-- The modes that names stand for. A name that no mode has stands for none. -/
def Mode.named (names : List (Option String)) : List (Option Mode) := names.map (·.bind ofName?)

/-- **In given modes the number of residuals is constant.** Whatever names are given for the modes,
however many, residuals can be had at any two states and are equally many. So the Jacobian fits the
residuals at whatever state a Gauss–Newton step starts from, and every evaluation of a bounded
method fits those at the initial state. -/
theorem residual_count_constant (s : System α n k) :
    (∀ (names : List (Option String)) (x y : State α n k), ∃ r r',
      s.residualsAt x.toList (Mode.named names) = .ok r ∧
      s.residualsAt y.toList (Mode.named names) = .ok r' ∧ r.length = r'.length) ∧
    (∀ x : State α n k, s.JacobianFits x (s.modes x)) ∧
    ∀ optimiser : Fit.Optimiser α, Bounded.EvaluationsFit optimiser s := by
  refine ⟨?_, ?_, ?_⟩
  · intro names x y
    refine ⟨_, _, s.residualsAt_toList x _, s.residualsAt_toList y _, ?_⟩
    rw [s.length_residuals, s.length_residuals]
  · intro x
    exact s.jacobianFits x (s.modes x)
  · intro optimiser
    exact Bounded.evaluationsFit optimiser s

end Drafting
