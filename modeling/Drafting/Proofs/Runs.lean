import Drafting.Proofs.Failure
import Drafting.Sketch.Basic

/-!
Runs of operations on a sketch. An operation is one of the eight calls that change a sketch, with
its arguments; a run is any sequence of them, from any sketch. An operation that fails still leaves
a sketch behind, and the run goes on from there.

A property that every operation keeps holds in every state of a run. What each operation can do to
a sketch is said once, in a lemma that gives every sketch it can leave behind; the invariants are
derived from these.
-/

namespace Drafting

/-- A call that changes a sketch. -/
inductive Operation where
  | addElement (flags : Flags) (e : Element Float) (suggest : Bool)
  | updateElement (flags : Flags) (e : Element Float) (thenSolve : Bool)
  | removeElement (id : Value)
  | addConstraint (c : Constraint)
  | removeConstraint (id : Value)
  | updateValue (id value : Value)
  | clearConstraints
  | solve (flags : Flags) (options : Option (Options Float))

namespace Sketch

/-- The sketch that an operation leaves behind, whether it fails or not. -/
def after (s : Sketch) : Operation → Sketch
  | .addElement flags e suggest => (s.addElement flags e suggest).1
  | .updateElement flags e thenSolve => (s.updateElement flags e thenSolve).1
  | .removeElement id => (s.removeElement id).1
  | .addConstraint c => (s.addConstraint c).1
  | .removeConstraint id => (s.removeConstraint id).1
  | .updateValue id value => (s.updateValue id value).1
  | .clearConstraints => s.clearConstraints
  | .solve flags options => (s.solve flags options).1

/-- The sketch after a sequence of operations. -/
def run (s : Sketch) (ops : List Operation) : Sketch := ops.foldl after s

/-- A sketch as it is made: nothing drawn, nothing solved yet. -/
def fresh (name id : Value) (issued : Nat) : Sketch := { name, id, issued }

/-- Every operation of a sequence is allowed in the state in which it comes. -/
def Permits (allowed : Sketch → Operation → Prop) : Sketch → List Operation → Prop
  | _, [] => True
  | s, op :: ops => allowed s op ∧ Permits allowed (s.after op) ops

@[simp] theorem run_cons (s : Sketch) (op : Operation) (ops : List Operation) :
    s.run (op :: ops) = (s.after op).run ops := rfl

/-- What every allowed operation keeps holds after every run of allowed operations. -/
theorem run_keeps {P : Sketch → Prop} {allowed : Sketch → Operation → Prop}
    (hstep : ∀ s op, allowed s op → P s → P (s.after op)) {s : Sketch} {ops : List Operation}
    (hops : s.Permits allowed ops) (hs : P s) : P (s.run ops) := by
  induction ops generalizing s with
  | nil => exact hs
  | cons op ops ih => exact ih hops.2 (hstep s op hops.1 hs)

/-- Operations that are allowed in every state are allowed in whatever state they come. -/
theorem permits_of_forall {allowed : Operation → Prop} {ops : List Operation}
    (h : ∀ op ∈ ops, allowed op) (s : Sketch) : s.Permits (fun _ => allowed) ops := by
  induction ops generalizing s with
  | nil => trivial
  | cons op ops ih =>
    exact ⟨h op (by simp), ih (fun op' hop' => h op' (by simp [hop'])) (s.after op)⟩

/-! ## What the operations can do -/

theorem replaceFirst?_eq_some {β : Type} {p : β → Bool} {b : β} {as bs : List β}
    (h : replaceFirst? p b as = some bs) :
    ∃ l a r, as = l ++ a :: r ∧ bs = l ++ b :: r ∧ as.find? p = some a := by
  induction as generalizing bs with
  | nil => cases h
  | cons a as ih =>
    unfold replaceFirst? at h
    split at h
    · rename_i ha
      cases h
      exact ⟨[], a, as, rfl, rfl, List.find?_cons_of_pos ha⟩
    · rename_i ha
      obtain ⟨bs', hbs, rfl⟩ := Option.map_eq_some_iff.mp h
      obtain ⟨l, a', r, rfl, rfl, hfind⟩ := ih hbs
      exact ⟨a :: l, a', r, rfl, rfl, by rw [List.find?_cons_of_neg ha, hfind]⟩

theorem addConstraint_cases (s : Sketch) (c : Constraint) :
    (s.addConstraint c).1 = s ∨
      c.isValid = true ∧ c.duplicateIndex? s.constraints = .ok none ∧
        (s.addConstraint c).1 = { s with constraints := s.constraints ++ [c], dirty := true } := by
  unfold addConstraint
  split
  · exact .inl rfl
  · rename_i hvalid
    split
    · exact .inl rfl
    · exact .inl rfl
    · rename_i hnone
      exact .inr ⟨by simpa using hvalid, hnone, rfl⟩

/-- Adding constraints appends some of them, in their order. -/
theorem addConstraints_cases (s : Sketch) (cs : List Constraint) :
    ∃ added, added.Sublist cs ∧
      (s.addConstraints cs).1 =
        { s with
          constraints := s.constraints ++ added
          dirty := s.dirty || !added.isEmpty } := by
  induction cs generalizing s with
  | nil => exact ⟨[], .slnil, by simp [addConstraints]⟩
  | cons c cs ih =>
    have hc := addConstraint_cases s c
    unfold addConstraints
    split
    · rename_i t a h
      rw [h] at hc
      obtain ⟨added, hsub, ht⟩ := ih t
      rcases hc with rfl | ⟨_, _, rfl⟩
      · exact ⟨added, hsub.cons c, ht⟩
      · exact ⟨c :: added, hsub.cons_cons c, by rw [ht]; simp⟩
    · -- the rest is given up, and what was appended before stays
      rename_i t e h
      rw [h] at hc
      rcases hc with rfl | ⟨_, _, rfl⟩
      · exact ⟨[], List.nil_sublist _, by simp⟩
      · exact ⟨[c], by simp, by simp⟩

/-- Adding an element appends it. If constraints are asked for and can be found, they are added one
after the other to the sketch with the element. -/
theorem addElement_eq (s : Sketch) (flags : Flags) (e : Element Float) (suggest : Bool) :
    (s.addElement flags e suggest).1 = { s with elements := s.elements ++ [e], dirty := true } ∨
      ∃ found, Suggestion.detect flags s.issued e s.elements s.constraints = .ok found ∧
        (s.addElement flags e suggest).1 =
          (({ s with
              elements := s.elements ++ [e], dirty := true
              issued := s.issued + found.constraints.length } : Sketch).addConstraints
            found.constraints).1 := by
  unfold addElement
  dsimp only
  split
  · exact .inl rfl
  · split
    · exact .inl rfl
    · rename_i found hfound
      refine .inr ⟨found, hfound, ?_⟩
      split
      · rename_i t a h
        rw [h]
      · rename_i t err h
        rw [h]

/-- Adding an element appends it, and some of the constraints that were suggested for it. -/
theorem addElement_cases (s : Sketch) (flags : Flags) (e : Element Float) (suggest : Bool) :
    ∃ added issued,
      (added = [] ∨
        ∃ found, Suggestion.detect flags s.issued e s.elements s.constraints = .ok found ∧
          added.Sublist found.constraints) ∧
      (s.addElement flags e suggest).1 =
        { s with
          elements := s.elements ++ [e], constraints := s.constraints ++ added
          dirty := true, issued } := by
  rcases s.addElement_eq flags e suggest with h | ⟨found, hfound, h⟩
  · exact ⟨[], s.issued, .inl rfl, by rw [h, List.append_nil]⟩
  · obtain ⟨added, hsub, ht⟩ := addConstraints_cases
      { s with
        elements := s.elements ++ [e], dirty := true
        issued := s.issued + found.constraints.length } found.constraints
    exact ⟨added, s.issued + found.constraints.length, .inr ⟨found, hfound, hsub⟩,
      by rw [h, ht, Bool.true_or]⟩

/-- Updating an element replaces the first one with its identifier; a solve may follow. -/
theorem updateElement_cases (s : Sketch) (flags : Flags) (e : Element Float) (thenSolve : Bool) :
    (replaceFirst? (·.id == e.id) e s.elements = none ∧
        (s.updateElement flags e thenSolve).1 = s) ∨
      ∃ elements, replaceFirst? (·.id == e.id) e s.elements = some elements ∧
        (s.updateElement flags e thenSolve).1 =
          if thenSolve && !s.constraints.isEmpty then
            (({ s with elements, dirty := true } : Sketch).solve flags none).1
          else { s with elements, dirty := true } := by
  unfold updateElement
  split
  · rename_i hnone
    exact .inl ⟨hnone, rfl⟩
  · rename_i elements helements
    refine .inr ⟨elements, helements, ?_⟩
    dsimp only
    split <;> rfl

/-- What is left when some items were taken out is a part of what was there. -/
theorem map_foldl_takeOut_sublist {β : Type} {agrees : β → β → Bool} (dropped : List (β × Nat))
    (bs : List β) : ((dropped.foldl (takeOut agrees) bs.zipIdx).map (·.1)).Sublist bs := by
  have hpart : ∀ xs : List (β × Nat), (dropped.foldl (takeOut agrees) xs).Sublist xs := by
    induction dropped with
    | nil => exact fun xs => .refl xs
    | cons x dropped ih => exact fun xs => (ih _).trans List.eraseP_sublist
  have h := (hpart bs.zipIdx).map (·.1)
  rwa [List.zipIdx_map_fst] at h

theorem map_takeOut_sublist {β : Type} {agrees : β → β → Bool} (x : β × Nat) (bs : List β) :
    ((takeOut agrees bs.zipIdx x).map (·.1)).Sublist bs :=
  map_foldl_takeOut_sublist [x] bs

/-- Removing an element takes it out, and every constraint that names a part of it. -/
theorem removeElement_cases (s : Sketch) (id : Value) :
    (s.removeElement id).1 = s ∨
      ∃ e graph dropped, s.elements.zipIdx.find? (·.1.id == id) = some e ∧
        Graph.ofElements [e.1] = .ok graph ∧ s.constraintsOn graph.names = .ok dropped ∧
        (s.removeElement id).1 =
          { s with
            elements := (takeOut Element.agrees s.elements.zipIdx e).map (·.1)
            constraints :=
              (dropped.foldl (takeOut (Constraint.agrees false)) s.constraints.zipIdx).map (·.1)
            dirty := true } := by
  unfold removeElement
  split
  · exact .inl rfl
  · rename_i e he
    split
    · exact .inl rfl
    · rename_i dropped hdropped
      obtain ⟨graph, hgraph, hdropped⟩ := bind_eq_ok.mp hdropped
      exact .inr ⟨e, graph, dropped, he, hgraph, hdropped, rfl⟩

/-- Removing a constraint takes it out. -/
theorem removeConstraint_cases (s : Sketch) (id : Value) :
    (s.removeConstraint id).1 = s ∨
      ∃ c, s.constraints.zipIdx.find? (·.1.id == id) = some c ∧
        (s.removeConstraint id).1 =
          { s with
            constraints := (takeOut (Constraint.agrees false) s.constraints.zipIdx c).map (·.1)
            dirty := true } := by
  unfold removeConstraint
  split
  · exact .inl rfl
  · rename_i c hc
    exact .inr ⟨c, hc, rfl⟩

theorem updateValue_cases (s : Sketch) (id value : Value) :
    (s.updateValue id value).1 = s ∨
      ∃ c constraints, s.constraint? id = some c ∧
        replaceFirst? (·.id == id) { c with value } s.constraints = some constraints ∧
        (s.updateValue id value).1 = { s with constraints, dirty := true } := by
  unfold updateValue
  split
  · exact .inl rfl
  · rename_i t h
    simp only [modifyConstraint?, Option.bind_eq_bind, Option.bind_eq_some_iff] at h
    obtain ⟨c, hc, constraints, hcs, h⟩ := h
    cases h
    exact .inr ⟨c, constraints, hc, hcs, rfl⟩

end Sketch

end Drafting
