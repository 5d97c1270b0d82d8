import Drafting.Proofs.Runs
import Drafting.Proofs.WriteBack

/-!
The error boundary of a solve. Taking the drawing apart, compiling, solving and writing back can all
fail, the last of them when the solver has new positions already. Whatever fails, the sketch keeps
its elements and constraints and only says that it is invalid; a solve that goes through replaces
the elements by ones with the same identifiers and kinds, and the sketch is valid again.

No other operation touches the record of the last solve. So in every state of every run the sketch
is valid exactly if it is being edited, exactly if it has no error message, and exactly if the last
solve of the run, if there was one, gave a result.
-/

namespace Drafting.Sketch

/-! ## One solve -/

/-- The constraints that keep rectangles along the axes during a solve. -/
def keeping (s : Sketch) : Except Error (List Constraint) :=
  if s.constraints.any (·.isEnabled) then Implicit.axisConstraints s.issued s.elements else pure []

/-- The end of a solve: the elements at the solved positions, or the old ones if there was nothing
to solve. -/
def written (s : Sketch) (r : Solution) : Except Error (Solution × List (Element Float)) :=
  if r.status = .noConstraints then .ok (r, s.elements)
  else (Solved.elements ⟨r.vertices, r.rings⟩ s.elements).map fun es => (r, es)

/-- A solve in its four stages, in which anything may find the solution. -/
def cycleWith (s : Sketch) (find : Graph Float → List Constraint → Except Error Solution) :
    Except Error (Solution × List (Element Float)) :=
  Graph.ofElements s.elements >>= fun graph =>
    s.keeping >>= fun keep => find graph (s.constraints ++ keep) >>= s.written

/-- A solve in its four stages. -/
theorem cycle_eq (s : Sketch) (flags : Flags) (options : Option (Options Float)) :
    s.cycle flags options =
      (Graph.ofElements s.elements >>= fun graph =>
        s.keeping >>= fun keep =>
          Solver.solve {} flags graph (s.constraints ++ keep) options >>= s.written) := by
  unfold cycle keeping
  congr 1
  funext graph
  split <;> rfl

theorem cycle_eq_cycleWith (s : Sketch) (flags : Flags) (options : Option (Options Float)) :
    s.cycle flags options = s.cycleWith fun graph constraints =>
      Solver.solve {} flags graph constraints options :=
  s.cycle_eq flags options

section Cycle

variable {s : Sketch} {find : Graph Float → List Constraint → Except Error Solution}
  {flags : Flags} {options : Option (Options Float)} {r : Solution} {es : List (Element Float)}

/-- A solve that went through took the drawing apart, solved, and wrote back what it found unless
there was nothing to solve. -/
theorem cycleWith_eq_ok (h : s.cycleWith find = .ok (r, es)) :
    ∃ graph keep, Graph.ofElements s.elements = .ok graph ∧ s.keeping = .ok keep ∧
      find graph (s.constraints ++ keep) = .ok r ∧
      (r.status = .noConstraints ∧ es = s.elements ∨
        r.status ≠ .noConstraints ∧
          Solved.elements ⟨r.vertices, r.rings⟩ s.elements = .ok es) := by
  obtain ⟨graph, hgraph, h⟩ := bind_eq_ok.mp h
  obtain ⟨keep, hkeep, h⟩ := bind_eq_ok.mp h
  obtain ⟨result, hresult, h⟩ := bind_eq_ok.mp h
  unfold written at h
  split at h
  · rename_i hstatus
    cases h
    exact ⟨graph, keep, hgraph, hkeep, hresult, .inl ⟨hstatus, rfl⟩⟩
  · rename_i hstatus
    obtain ⟨elements, helements, h⟩ := map_eq_ok.mp h
    cases h
    exact ⟨graph, keep, hgraph, hkeep, hresult, .inr ⟨hstatus, helements⟩⟩

theorem cycle_eq_ok (h : s.cycle flags options = .ok (r, es)) :
    ∃ graph keep, Graph.ofElements s.elements = .ok graph ∧ s.keeping = .ok keep ∧
      Solver.solve {} flags graph (s.constraints ++ keep) options = .ok r ∧
      (r.status = .noConstraints ∧ es = s.elements ∨
        r.status ≠ .noConstraints ∧
          Solved.elements ⟨r.vertices, r.rings⟩ s.elements = .ok es) := by
  rw [cycle_eq_cycleWith] at h
  exact cycleWith_eq_ok h

theorem cycleWith_elements (h : s.cycleWith find = .ok (r, es)) :
    List.Forall₂ Element.Alike s.elements es := by
  obtain ⟨_, _, _, _, _, ⟨_, rfl⟩ | ⟨_, h⟩⟩ := cycleWith_eq_ok h
  · exact List.forall₂_same.mpr fun e _ => .refl e
  · exact Solved.elements_alike h

theorem cycle_elements (h : s.cycle flags options = .ok (r, es)) :
    List.Forall₂ Element.Alike s.elements es := by
  rw [cycle_eq_cycleWith] at h
  exact cycleWith_elements h

end Cycle

/-- The wording of a failed solve. -/
def failureText (cause : Error) : String := "Constraint solver error: " ++ cause.message

/-- What a solve that failed leaves behind: everything as it was, marked as invalid. -/
structure Abandoned (s t : Sketch) (cause : Error) : Prop where
  elements : t.elements = s.elements
  constraints : t.constraints = s.constraints
  name : t.name = s.name
  id : t.id = s.id
  dirty : t.dirty = s.dirty
  valid : t.valid = false
  state : t.state = .invalid
  errorMessage : t.errorMessage = some (failureText cause)

/-- What a solve that went through leaves behind: constraints, name and identifier as they were,
and elements of the same kinds under the same identifiers, marked as valid. -/
structure Settled (s t : Sketch) (r : Solution) : Prop where
  constraints : t.constraints = s.constraints
  name : t.name = s.name
  id : t.id = s.id
  elements : List.Forall₂ (fun e e' => e'.id = e.id ∧ e'.shape.kind? = e.shape.kind?)
    s.elements t.elements
  untouched : r.status = .noConstraints → t.elements = s.elements
  valid : t.valid = true
  state : t.state = .editing
  errorMessage : t.errorMessage = none
  dirty : t.dirty = true

/-- A solve of a sketch, in which anything may find the solution. If anything fails on the way, the
sketch is marked as invalid and otherwise left as it was. -/
def solveWith (s : Sketch) (find : Graph Float → List Constraint → Except Error Solution) :
    Sketch × Option Solution :=
  match s.cycleWith find with
  | .ok (result, elements) =>
    ({ s with elements, state := .editing, valid := true, errorMessage := none, dirty := true },
      some result)
  | .error e =>
    ({ s with state := .invalid, valid := false, errorMessage := some (failureText e) }, none)

theorem solve_eq_solveWith (s : Sketch) (flags : Flags) (options : Option (Options Float)) :
    s.solve flags options = s.solveWith fun graph constraints =>
      Solver.solve {} flags graph constraints options := by
  unfold solve solveWith
  rw [cycle_eq_cycleWith]
  rfl

section Solve

variable {s t : Sketch} {find : Graph Float → List Constraint → Except Error Solution}
  {flags : Flags} {options : Option (Options Float)} {r : Solution} {es : List (Element Float)}
  {cause : Error}

theorem solveWith_abandoned (h : s.cycleWith find = .error cause) :
    (s.solveWith find).2 = none ∧ Abandoned s (s.solveWith find).1 cause := by
  unfold solveWith
  rw [h]
  exact ⟨rfl, rfl, rfl, rfl, rfl, rfl, rfl, rfl, rfl⟩

theorem solveWith_settled (h : s.cycleWith find = .ok (r, es)) :
    (s.solveWith find).2 = some r ∧ Settled s (s.solveWith find).1 r := by
  have halike := (cycleWith_elements h).imp fun e e' he => And.intro he.id he.kind
  have huntouched : r.status = .noConstraints → es = s.elements := by
    intro hstatus
    obtain ⟨_, _, _, _, _, ⟨_, rfl⟩ | ⟨hne, _⟩⟩ := cycleWith_eq_ok h
    · rfl
    · exact absurd hstatus hne
  unfold solveWith
  rw [h]
  exact ⟨rfl, rfl, rfl, rfl, halike, huntouched, rfl, rfl, rfl, rfl⟩

/-- Whatever finds the solution, a solve ends in one of two ways. -/
theorem solveWith_boundary (s : Sketch)
    (find : Graph Float → List Constraint → Except Error Solution) :
    match s.solveWith find with
    | (t, none) => ∃ cause, s.cycleWith find = .error cause ∧ Abandoned s t cause
    | (t, some r) => Settled s t r := by
  cases h : s.cycleWith find with
  | error cause =>
    obtain ⟨hnone, ht⟩ := solveWith_abandoned h
    have hpair : s.solveWith find = ((s.solveWith find).1, none) := by rw [← hnone]
    rw [hpair]
    exact ⟨cause, rfl, ht⟩
  | ok result =>
    obtain ⟨hsome, ht⟩ := solveWith_settled h
    have hpair : s.solveWith find = ((s.solveWith find).1, some result.1) := by rw [← hsome]
    rw [hpair]
    exact ht

theorem solve_eq_of_ok (h : s.cycle flags options = .ok (r, es)) :
    s.solve flags options =
      ({ s with
          elements := es, state := .editing, valid := true, errorMessage := none, dirty := true },
        some r) := by
  unfold solve
  rw [h]

theorem solve_abandoned (h : s.cycle flags options = .error cause) :
    (s.solve flags options).2 = none ∧ Abandoned s (s.solve flags options).1 cause := by
  rw [cycle_eq_cycleWith] at h
  rw [solve_eq_solveWith]
  exact solveWith_abandoned h

theorem solve_settled (h : s.cycle flags options = .ok (r, es)) :
    (s.solve flags options).2 = some r ∧ Settled s (s.solve flags options).1 r := by
  rw [cycle_eq_cycleWith] at h
  rw [solve_eq_solveWith]
  exact solveWith_settled h

theorem solve_eq_some (h : s.solve flags options = (t, some r)) :
    ∃ es, s.cycle flags options = .ok (r, es) ∧ t.elements = es ∧
      t.constraints = s.constraints ∧ t.issued = s.issued := by
  cases hcycle : s.cycle flags options with
  | error cause =>
    have hnone := (solve_abandoned hcycle).1
    rw [h] at hnone
    cases hnone
  | ok result =>
    rw [solve_eq_of_ok hcycle] at h
    cases h
    exact ⟨_, rfl, rfl, rfl, rfl⟩

end Solve

/-! ## Whole runs -/

/-- The record of the last solve: valid, being edited and without a message, or none of these. -/
def Coherent (s : Sketch) : Prop :=
  (s.valid = true ∧ s.state = .editing ∧ s.errorMessage = none) ∨
    (s.valid = false ∧ s.state = .invalid ∧ ∃ cause, s.errorMessage = some (failureText cause))

theorem solve_coherent (s : Sketch) (flags : Flags) (options : Option (Options Float)) :
    (s.solve flags options).1.Coherent ∧
      (s.solve flags options).1.valid = (s.solve flags options).2.isSome := by
  cases h : s.cycle flags options with
  | error cause =>
    obtain ⟨hnone, ht⟩ := solve_abandoned h
    exact ⟨.inr ⟨ht.valid, ht.state, cause, ht.errorMessage⟩, by rw [hnone, ht.valid]; rfl⟩
  | ok result =>
    obtain ⟨hsome, ht⟩ := solve_settled h
    exact ⟨.inl ⟨ht.valid, ht.state, ht.errorMessage⟩, by rw [hsome, ht.valid]; rfl⟩

/-- The solve that an operation runs on a sketch, if it runs one: where it starts, and with which
parameters. -/
def solving? (s : Sketch) : Operation → Option (Sketch × Flags × Option (Options Float))
  | .solve flags options => some (s, flags, options)
  | .updateElement flags e thenSolve =>
    if thenSolve && !s.constraints.isEmpty then
      (replaceFirst? (·.id == e.id) e s.elements).map fun elements =>
        ({ s with elements, dirty := true }, flags, none)
    else none
  | _ => none

/-- The answer of the last solve in a run, if there was one. -/
def lastSolve? (s : Sketch) : List Operation → Option (Option Solution)
  | [] => none
  | op :: ops =>
    (s.after op).lastSolve? ops <|>
      (s.solving? op).map fun (start, flags, options) => (start.solve flags options).2

/-- An operation runs a solve and leaves what that leaves, or it leaves the record alone. -/
theorem after_cases (s : Sketch) (op : Operation) :
    (∃ start flags options, s.solving? op = some (start, flags, options) ∧
        s.after op = (start.solve flags options).1) ∨
      s.solving? op = none ∧ (s.after op).valid = s.valid ∧ (s.after op).state = s.state ∧
        (s.after op).errorMessage = s.errorMessage := by
  cases op with
  | addElement flags e suggest =>
    obtain ⟨added, issued, _, h⟩ := s.addElement_cases flags e suggest
    exact .inr ⟨rfl, by simp [after, h]⟩
  | updateElement flags e thenSolve =>
    -- besides a solve, the one operation that may end in a solve
    rcases s.updateElement_cases flags e thenSolve with ⟨hnone, h⟩ | ⟨elements, helements, h⟩
    · exact .inr ⟨by simp [solving?, hnone], by simp [after, h]⟩
    · by_cases hsolve : (thenSolve && !s.constraints.isEmpty) = true
      · rw [if_pos hsolve] at h
        exact .inl ⟨_, flags, none, by rw [solving?, if_pos hsolve, helements]; rfl, h⟩
      · rw [if_neg hsolve] at h
        exact .inr ⟨by rw [solving?, if_neg hsolve], by simp [after, h]⟩
  | removeElement id =>
    rcases s.removeElement_cases id with h | ⟨_, _, _, _, _, _, h⟩
    · exact .inr ⟨rfl, by simp [after, h]⟩
    · exact .inr ⟨rfl, by simp [after, h]⟩
  | addConstraint c =>
    rcases s.addConstraint_cases c with h | ⟨_, _, h⟩
    · exact .inr ⟨rfl, by simp [after, h]⟩
    · exact .inr ⟨rfl, by simp [after, h]⟩
  | removeConstraint id =>
    rcases s.removeConstraint_cases id with h | ⟨_, _, h⟩
    · exact .inr ⟨rfl, by simp [after, h]⟩
    · exact .inr ⟨rfl, by simp [after, h]⟩
  | updateValue id value =>
    rcases s.updateValue_cases id value with h | ⟨_, _, _, _, h⟩
    · exact .inr ⟨rfl, by simp [after, h]⟩
    · exact .inr ⟨rfl, by simp [after, h]⟩
  | clearConstraints => exact .inr ⟨rfl, rfl, rfl, rfl⟩
  | solve flags options => exact .inl ⟨s, flags, options, rfl, rfl⟩

theorem after_coherent {s : Sketch} (op : Operation) (hs : s.Coherent) :
    (s.after op).Coherent := by
  rcases s.after_cases op with ⟨start, flags, options, _, h⟩ | ⟨_, hvalid, hstate, hmessage⟩
  · rw [h]
    exact (start.solve_coherent flags options).1
  · unfold Coherent
    rw [hvalid, hstate, hmessage]
    exact hs

theorem run_coherent {s : Sketch} (ops : List Operation) (hs : s.Coherent) :
    (s.run ops).Coherent := by
  induction ops generalizing s with
  | nil => exact hs
  | cons op ops ih => exact ih (after_coherent op hs)

/-- After a run a sketch is valid as the last solve says, or as it was if there was none. -/
theorem run_valid (s : Sketch) (ops : List Operation) :
    (s.run ops).valid = ((s.lastSolve? ops).map Option.isSome).getD s.valid := by
  induction ops generalizing s with
  | nil => rfl
  | cons op ops ih =>
    rw [run_cons, ih, lastSolve?]
    cases hlater : (s.after op).lastSolve? ops with
    | some result => rfl
    | none =>
      -- no later solve: the verdict is that of this operation
      rcases s.after_cases op with ⟨start, flags, options, hsolve, h⟩ | ⟨hsolve, hvalid, _⟩
      · rw [hsolve, h]
        exact (start.solve_coherent flags options).2
      · rw [hsolve]
        exact hvalid

/-- **The error boundary.** Whatever finds the solution, and so for the built-in solver, a solve that
gives no result leaves the sketch as it was, marked as invalid with the cause; one that gives a
result leaves a valid sketch with the same constraints and with elements of the same kinds under the
same identifiers. In every state of a run from a fresh sketch, the sketch is valid exactly if it is
being edited, if it has no error message, and if the last solve, if any, gave a result. -/
theorem solve_error_boundary :
    (∀ (s : Sketch) (find : Graph Float → List Constraint → Except Error Solution),
      match s.solveWith find with
      | (t, none) => ∃ cause, s.cycleWith find = .error cause ∧ Abandoned s t cause
      | (t, some r) => Settled s t r) ∧
    (∀ (s : Sketch) (flags : Flags) (options : Option (Options Float)),
      match s.solve flags options with
      | (t, none) => ∃ cause, s.cycle flags options = .error cause ∧ Abandoned s t cause
      | (t, some r) => Settled s t r) ∧
    ∀ (name id : Value) (issued : Nat) (ops : List Operation),
      let start := fresh name id issued
      let t := start.run ops
      (t.valid = true ↔ t.state = .editing) ∧ (t.valid = true ↔ t.errorMessage = none) ∧
        (t.valid = true ↔ start.lastSolve? ops ≠ some none) ∧
        (t.valid = true ∨ ∃ cause, t.errorMessage = some (failureText cause)) := by
  refine ⟨solveWith_boundary, ?_, ?_⟩
  · intro s flags options
    rw [solve_eq_solveWith, cycle_eq_cycleWith]
    exact s.solveWith_boundary _
  · intro name id issued ops start t
    have hvalid : t.valid = ((start.lastSolve? ops).map Option.isSome).getD true :=
      run_valid start ops
    have hlast : t.valid = true ↔ start.lastSolve? ops ≠ some none := by
      rw [hvalid]
      rcases start.lastSolve? ops with _ | _ | r <;> simp
    rcases run_coherent (s := start) ops (.inl ⟨rfl, rfl, rfl⟩) with
      ⟨hv, hs, hm⟩ | ⟨hv, hs, cause, hm⟩
    · exact ⟨by simp [t, hv, hs], by simp [t, hv, hm], hlast, .inl hv⟩
    · exact ⟨by simp [t, hv, hs], by simp [t, hv, hm], hlast, .inr ⟨cause, hm⟩⟩

end Drafting.Sketch
