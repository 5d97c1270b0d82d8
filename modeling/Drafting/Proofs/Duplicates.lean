import Drafting.Proofs.ErrorBoundary

/-!
No constraint is stored twice. Two constraints that say the same need not say it of a third, because
target values are compared up to a tolerance; so a list without repetitions is one in which no
constraint says the same as any later one, and this is what every operation keeps.

A constraint comes in through the duplicate check only, whether it was given or suggested, and every
other operation leaves a part of the list. The exception is a change of a target value, which can
make one constraint say what another says already.
-/

namespace Drafting

/-! ## Lists of constraints -/

/-- A constraint is found to be new exactly if it was compared to every one of a list, and none says
the same. -/
theorem Constraint.duplicateIndex?_eq_none {c : Constraint} {cs : List Constraint} :
    c.duplicateIndex? cs = .ok none ↔ ∀ d ∈ cs, d.sameAs c = .ok false := by
  induction cs with
  | nil => simp [duplicateIndex?]
  | cons d ds ih =>
    rw [duplicateIndex?, List.forall_mem_cons, ← ih, bind_eq_ok]
    constructor
    · rintro ⟨same, hsame, h⟩
      cases same with
      | true => cases h
      | false =>
        obtain ⟨found, hfound, h⟩ := bind_eq_ok.mp h
        cases found with
        | none => exact ⟨hsame, hfound⟩
        | some i => cases h
    · rintro ⟨hsame, hnone⟩
      exact ⟨false, hsame, bind_eq_ok.mpr ⟨none, hnone, rfl⟩⟩

/-- Constraints as a sketch stores them: none says the same as a later one, and each names enough. -/
structure Tidy (cs : List Constraint) : Prop where
  apart : cs.Pairwise fun c d => c.sameAs d = .ok false
  complete : ∀ c ∈ cs, c.defect? = none

theorem Tidy.nil : Tidy [] := ⟨.nil, nofun⟩

theorem Tidy.sublist {cs ds : List Constraint} (hcs : Tidy cs) (h : ds.Sublist cs) : Tidy ds :=
  ⟨hcs.apart.sublist h, fun c hc => hcs.complete c (h.subset hc)⟩

/-- A constraint that names enough and is found to be new can be put at the end. -/
theorem Tidy.append {cs : List Constraint} (hcs : Tidy cs) {c : Constraint}
    (hvalid : c.isValid = true) (hnew : c.duplicateIndex? cs = .ok none) : Tidy (cs ++ [c]) := by
  constructor
  · refine List.pairwise_append.mpr ⟨hcs.apart, List.pairwise_singleton _ c, ?_⟩
    intro d hd c' hc'
    rw [List.mem_singleton.mp hc']
    exact Constraint.duplicateIndex?_eq_none.mp hnew d hd
  · intro d hd
    rcases List.mem_append.mp hd with hd | hd
    · exact hcs.complete d hd
    · rw [List.mem_singleton.mp hd]
      simpa [Constraint.isValid] using hvalid

/-! ## Operations -/

namespace Sketch

theorem addConstraint_tidy (s : Sketch) (c : Constraint) (hs : Tidy s.constraints) :
    Tidy (s.addConstraint c).1.constraints := by
  rcases s.addConstraint_cases c with h | ⟨hvalid, hnew, h⟩
  · rw [h]
    exact hs
  · rw [h]
    exact hs.append hvalid hnew

theorem addConstraints_tidy (s : Sketch) (cs : List Constraint) (hs : Tidy s.constraints) :
    Tidy (s.addConstraints cs).1.constraints := by
  induction cs generalizing s with
  | nil => exact hs
  | cons c cs ih =>
    have hc := s.addConstraint_tidy c hs
    unfold addConstraints
    split
    · rename_i t a h
      rw [h] at hc
      exact ih t hc
    · rename_i t e h
      rw [h] at hc
      exact hc

theorem addElement_tidy (s : Sketch) (flags : Flags) (e : Element Float) (suggest : Bool)
    (hs : Tidy s.constraints) : Tidy (s.addElement flags e suggest).1.constraints := by
  rcases s.addElement_eq flags e suggest with h | ⟨found, _, h⟩
  · rw [h]
    exact hs
  · rw [h]
    exact addConstraints_tidy _ found.constraints hs

theorem solve_constraints (s : Sketch) (flags : Flags) (options : Option (Options Float)) :
    (s.solve flags options).1.constraints = s.constraints := by
  cases h : s.cycle flags options with
  | error cause => exact (solve_abandoned h).2.constraints
  | ok result => exact (solve_settled h).2.constraints

theorem updateElement_constraints (s : Sketch) (flags : Flags) (e : Element Float)
    (thenSolve : Bool) : (s.updateElement flags e thenSolve).1.constraints = s.constraints := by
  rcases s.updateElement_cases flags e thenSolve with ⟨_, h⟩ | ⟨elements, _, h⟩
  · rw [h]
  · rw [h]
    split
    · exact solve_constraints _ flags none
    · rfl

/-- Removing an element leaves a part of the constraints. -/
theorem removeElement_constraints (s : Sketch) (id : Value) :
    (s.removeElement id).1.constraints.Sublist s.constraints := by
  rcases s.removeElement_cases id with h | ⟨_, _, dropped, _, _, _, h⟩
  · rw [h]
  · rw [h]
    exact map_foldl_takeOut_sublist dropped s.constraints

end Sketch

/-- Whether an operation changes the target value of a constraint that is there. -/
def Operation.setsValue : Operation → Bool
  | updateValue .. => true
  | _ => false

namespace Sketch

/-- Every operation that changes no target value keeps the constraints tidy. -/
theorem after_tidy (s : Sketch) (op : Operation) (hop : op.setsValue = false)
    (hs : Tidy s.constraints) : Tidy (s.after op).constraints := by
  cases op with
  | addElement flags e suggest => exact s.addElement_tidy flags e suggest hs
  | updateElement flags e thenSolve =>
    rw [after, updateElement_constraints]
    exact hs
  | removeElement id => exact hs.sublist (s.removeElement_constraints id)
  | addConstraint c => exact s.addConstraint_tidy c hs
  | removeConstraint id =>
    rcases s.removeConstraint_cases id with h | ⟨c, _, h⟩
    · rw [after, h]
      exact hs
    · rw [after, h]
      exact hs.sublist (map_takeOut_sublist c s.constraints)
  | updateValue id value => cases hop
  | clearConstraints => exact .nil
  | solve flags options =>
    rw [after, solve_constraints]
    exact hs

/-- **No duplicates are stored.** After every run of operations from an empty sketch, whichever of
them failed, no stored constraint says the same as a later one, and each names as many things as its
kind needs. Only the operation that changes a target value without a check must not occur. -/
theorem run_stores_no_duplicates (name id : Value) (issued : Nat) (ops : List Operation)
    (hops : ∀ op ∈ ops, op.setsValue = false) : Tidy ((fresh name id issued).run ops).constraints :=
  run_keeps (P := fun s => Tidy s.constraints) after_tidy (permits_of_forall hops _) .nil

/-- A run in which two lines meet at a corner and are suggested to coincide there. A constraint that
says so again is refused, and so is a length that differs from the one before it by less than the
tolerance; a third length, near to the refused one only, is taken. One line is removed in the end. -/
def cornerRun : List Operation :=
  [.addElement .standard ⟨.text "a", .hline ⟨0.0, 0.0⟩ 6.0⟩ true,
    .addElement .standard ⟨.text "b", .vline ⟨6.0, 0.0⟩ 8.0⟩ true,
    .addConstraint (.coincidence (.text "c") (.text "a_end") (.text "b_start")),
    .addConstraint (.length (.text "u") (.text "b_line") (.float 8.0)),
    .addConstraint (.length (.text "v") (.text "b_line") (.float 8.0000000006)),
    .addConstraint (.length (.text "w") (.text "b_line") (.float 8.0000000012)),
    .addConstraint (.horizontal (.text "h") (.text "a_line")),
    .solve .standard none]

set_option maxRecDepth 100000 in
theorem run_stores_no_duplicates_cornerRun :
    let t := (fresh (.text "s") (.text "s") 0).run cornerRun
    let left := t.run [.removeElement (.text "a")]
    t.constraints.map (·.kind) = [.coincident, .distance, .distance, .horizontal] ∧
      left.constraints.map (·.kind) = [.distance, .distance] ∧
      Tidy t.constraints ∧ Tidy left.constraints := by
  intro t left
  have hleft : left = (fresh (.text "s") (.text "s") 0).run
      (cornerRun ++ [.removeElement (.text "a")]) := by rfl
  refine ⟨by decide +kernel, by decide +kernel, ?_, ?_⟩
  · exact run_stores_no_duplicates _ _ _ cornerRun (by decide)
  · rw [hleft]
    exact run_stores_no_duplicates _ _ _ _ (by decide)

end Sketch

end Drafting
