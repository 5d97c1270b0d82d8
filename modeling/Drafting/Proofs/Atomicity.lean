import Drafting.Proofs.Comparison
import Drafting.Proofs.ErrorBoundary
import Drafting.Proofs.References

/-!
All or nothing. An operation that fails should leave the sketch as it was. Replacing an element,
removing one and adding a constraint do so, since they compute everything that may fail before they
change anything; a solve and the other changes of constraints do not fail at all.

Adding an element does not do so. The element is appended first, and only then constraints are
suggested for it, which fails for an arc with an infinite angle and for an element without a kind.
Such an element stays in the sketch, and with such an arc the sketch can no longer be solved.
Where constraints name things by texts there is no other reason for which adding an element fails.
-/

namespace Drafting

variable {α : Type} [Scalar α]

/-! ## Suggestions that can be found -/

namespace Suggestion

/-- The anchors of an element can be told exactly if its vertices can, and it has a kind. -/
theorem anchors_isOk_iff {indexed : Bool} {e : Element α} :
    (∃ as, anchors indexed e = .ok as) ↔ e.shape ≠ .foreign ∧ e.shape.hasInfiniteAngle = false := by
  rw [← Shape.places_isOk_iff]
  obtain ⟨id, shape⟩ := e
  cases shape with
  | line | hline | vline | rectangle | circle =>
    exact ⟨fun _ => ⟨by simp, _, rfl⟩, fun _ => ⟨_, rfl⟩⟩
  | spline points =>
    refine ⟨fun _ => ⟨by simp, _, rfl⟩, fun _ => ?_⟩
    simp only [anchors]
    split
    · split
      · exact ⟨_, rfl⟩
      · exact ⟨_, rfl⟩
    · exact ⟨_, rfl⟩
  | foreign =>
    constructor
    · rintro ⟨as, h⟩
      cases h
    · rintro ⟨hkind, -⟩
      exact absurd rfl hkind
  | arc center radius a b =>
    constructor
    · rintro ⟨as, h⟩
      obtain ⟨start, hstart, h⟩ := bind_eq_ok.mp h
      obtain ⟨stop, hstop, _⟩ := bind_eq_ok.mp h
      exact ⟨by simp, _, bind_eq_ok.mpr ⟨start, hstart, bind_eq_ok.mpr ⟨stop, hstop, rfl⟩⟩⟩
    · rintro ⟨-, places, h⟩
      obtain ⟨start, hstart, h⟩ := bind_eq_ok.mp h
      obtain ⟨stop, hstop, _⟩ := bind_eq_ok.mp h
      exact ⟨_, bind_eq_ok.mpr ⟨start, hstart, bind_eq_ok.mpr ⟨stop, hstop, rfl⟩⟩⟩

/-- Constraints as they are suggested: they name things by texts and have no target value. -/
def Simple (cs : List Constraint) : Prop := ∀ c ∈ cs, c.NamesTexts ∧ c.kind.isDimension = false

theorem consider_isOk {issued : Nat} {existing : List Constraint} {found : Suggestions}
    {a : Anchor α} {v : Vertex α} (hexisting : ∀ c ∈ existing, c.NamesTexts)
    (hv : Graph.Named v) (hfound : Simple found.constraints) :
    ∃ found', consider issued existing found a v = .ok found' ∧ Simple found'.constraints := by
  obtain ⟨there, hthere⟩ : ∃ there, hasPair (.text a.id) v.id (existing ++ found.constraints) =
      .ok there := by
    refine ⟨_, hasPair_eq ⟨a.id, rfl⟩ hv fun c hc => ?_⟩
    rcases List.mem_append.mp hc with hc | hc
    · exact hexisting c hc
    · exact (hfound c hc).1
  have hadded : Simple (coincide issued found a v).constraints := by
    intro c hc
    rcases coincide_mem hc with hc | ⟨id, rfl⟩
    · exact hfound c hc
    · refine ⟨fun q hq => ?_, rfl⟩
      rcases List.mem_pair.mp hq with rfl | rfl
      · exact ⟨a.id, rfl⟩
      · exact hv
  unfold consider
  rw [hthere]
  split
  · cases there with
    | true => exact ⟨found, rfl, hfound⟩
    | false => exact ⟨_, rfl, hadded⟩
  · exact ⟨found, rfl, hfound⟩

theorem considerAxis_simple {issued : Nat} {existing : List Constraint} {found : Suggestions}
    {e : Element α} (hfound : Simple found.constraints) :
    Simple (considerAxis issued existing found e).constraints := by
  intro c hc
  rcases considerAxis_mem hc with hc | ⟨hpoints, hlines, hcircles, hkind, _⟩
  · exact hfound c hc
  · refine ⟨fun q hq => ?_, hkind⟩
    rw [Constraint.references, hpoints, hlines, hcircles] at hq
    exact ⟨lineName e.id, List.mem_singleton.mp hq⟩

/-- Suggestions for an element with a kind are found if the drawing can be taken apart. -/
theorem detect_isOk (flags : Flags) (issued : Nat) {e : Element α} {others : List (Element α)}
    {existing : List Constraint} (hexisting : ∀ c ∈ existing, c.NamesTexts)
    (hkind : e.shape ≠ .foreign)
    (hangles : ∀ e' ∈ others ++ [e], e'.shape.hasInfiniteAngle = false) :
    ∃ found, detect flags issued e others existing = .ok found ∧ Simple found.constraints := by
  unfold detect
  split
  · exact ⟨{}, rfl, nofun⟩
  · obtain ⟨g, hg⟩ := Graph.ofElements_isOk_iff.mpr fun e' he' =>
      hangles e' (List.mem_append_left _ he')
    obtain ⟨as, has⟩ := anchors_isOk_iff.mpr ⟨hkind, hangles e (by simp)⟩
    have hnamed := (Graph.ofElements_covers hg).named.1
    -- what was found is compared to what is found next, so both folds carry that it is simple
    have hanchor : ∀ a ∈ as, ∀ found : Suggestions, Simple found.constraints →
        ∃ found', (g.vertices.filter fun v => !(v.element == e.id)).foldlM
            (fun found v => consider issued existing found a v) found = .ok found' ∧
          Simple found'.constraints := fun a _ found hfound =>
      foldlM_total (P := fun found : Suggestions => Simple found.constraints) hfound
        fun v hv found hfound =>
          consider_isOk hexisting (hnamed v (List.mem_of_mem_filter hv)) hfound
    obtain ⟨near, hnear, hsimple⟩ := foldlM_total
      (P := fun found : Suggestions => Simple found.constraints) (b := {}) nofun hanchor
    refine ⟨considerAxis issued existing near e, ?_, considerAxis_simple hsimple⟩
    exact bind_eq_ok.mpr ⟨g, hg, bind_eq_ok.mpr ⟨as, has, bind_eq_ok.mpr ⟨near, hnear, rfl⟩⟩⟩

/-- Where suggestions were found, the drawing could be taken apart and the element has a kind. -/
theorem detect_eq_ok {flags : Flags} {issued : Nat} {e : Element α} {others : List (Element α)}
    {existing : List Constraint} {found : Suggestions}
    (h : detect flags issued e others existing = .ok found)
    (hflag : flags.isEnabled (.text "auto_constraints") = true) :
    e.shape ≠ .foreign ∧ ∀ e' ∈ others ++ [e], e'.shape.hasInfiniteAngle = false := by
  unfold detect at h
  rw [hflag] at h
  obtain ⟨g, hg, h⟩ := bind_eq_ok.mp h
  obtain ⟨as, has, _⟩ := bind_eq_ok.mp h
  obtain ⟨hkind, hangle⟩ := anchors_isOk_iff.mp ⟨as, has⟩
  refine ⟨hkind, fun e' he' => ?_⟩
  rcases List.mem_append.mp he' with he' | he'
  · exact Graph.ofElements_isOk_iff.mp ⟨g, hg⟩ e' he'
  · rw [List.mem_singleton.mp he']
    exact hangle

end Suggestion

/-! ## Operations that fail -/

/-- The error of an operation that failed. -/
def Effect.error? {β : Type} (result : Effect β) : Option Error :=
  match result.2 with
  | .ok _ => none
  | .error err => some err

/-- Whether an operation draws a new element. -/
def Operation.draws : Operation → Bool
  | addElement .. => true
  | _ => false

namespace Sketch

/-- The error that an operation reports. A solve that fails reports none, and neither do the changes
of constraints that are there. -/
def failure? (s : Sketch) : Operation → Option Error
  | .addElement flags e suggest => Effect.error? (s.addElement flags e suggest)
  | .updateElement flags e thenSolve => Effect.error? (s.updateElement flags e thenSolve)
  | .removeElement id => Effect.error? (s.removeElement id)
  | .addConstraint c => Effect.error? (s.addConstraint c)
  | .removeConstraint _ | .updateValue .. | .clearConstraints | .solve .. => none

/-- What is drawn, what is required and the record of changes and solves are the same. -/
structure Unchanged (s t : Sketch) : Prop where
  elements : t.elements = s.elements
  constraints : t.constraints = s.constraints
  dirty : t.dirty = s.dirty
  valid : t.valid = s.valid
  state : t.state = s.state
  errorMessage : t.errorMessage = s.errorMessage

/-- If the operation fails on the sketch, it changes nothing. -/
def AllOrNothing (s : Sketch) (op : Operation) : Prop :=
  ∀ cause, s.failure? op = some cause → Unchanged s (s.after op)

/-- A sketch with a new element, and perhaps with new constraints, that says nothing of a failure. -/
structure HalfDrawn (s t : Sketch) (e : Element Float) : Prop where
  elements : t.elements = s.elements ++ [e]
  constraints : s.constraints <+: t.constraints
  dirty : t.dirty = true
  valid : t.valid = s.valid
  state : t.state = s.state
  errorMessage : t.errorMessage = s.errorMessage

/-- An operation that fails leaves everything as it was, unless it draws an element. -/
theorem after_eq_of_failure {s : Sketch} {op : Operation} {cause : Error}
    (h : s.failure? op = some cause) (hop : op.draws = false) : s.after op = s := by
  cases op with
  | addElement flags e suggest => cases hop
  | updateElement flags e thenSolve =>
    rcases s.updateElement_cases flags e thenSolve with ⟨_, hsame⟩ | ⟨elements, helements, _⟩
    · exact hsame
    · simp only [failure?, updateElement, helements] at h
      split at h <;> cases h
  | removeElement id =>
    rcases s.removeElement_cases id with hsame | ⟨e, graph, dropped, he, hgraph, hdropped, _⟩
    · exact hsame
    · have hboth : (Graph.ofElements [e.1] >>= fun graph => s.constraintsOn graph.names) =
          .ok dropped := bind_eq_ok.mpr ⟨graph, hgraph, hdropped⟩
      simp only [failure?, removeElement, he, hboth] at h
      cases h
  | addConstraint c =>
    rcases s.addConstraint_cases c with hsame | ⟨hvalid, hnew, _⟩
    · exact hsame
    · simp only [failure?, addConstraint, hvalid, hnew] at h
      cases h
  | removeConstraint | updateValue | clearConstraints | solve => cases h

/-- Adding an element appends it, whether it fails or not. -/
theorem addElement_halfDrawn (s : Sketch) (flags : Flags) (e : Element Float) (suggest : Bool) :
    HalfDrawn s (s.addElement flags e suggest).1 e := by
  obtain ⟨added, issued, _, h⟩ := s.addElement_cases flags e suggest
  rw [h]
  exact ⟨rfl, List.prefix_append _ _, rfl, rfl, rfl, rfl⟩

theorem HalfDrawn.mem {s t : Sketch} {e : Element Float} (ht : HalfDrawn s t e) :
    e ∈ t.elements := by
  rw [ht.elements]
  exact List.mem_append_right _ (List.mem_singleton.mpr rfl)

theorem HalfDrawn.not_unchanged {s t : Sketch} {e : Element Float} (ht : HalfDrawn s t e) :
    ¬ Unchanged s t := by
  intro hsame
  have hlength := congrArg List.length (ht.elements.symm.trans hsame.elements)
  simp at hlength

theorem allOrNothing_iff (s : Sketch) (op : Operation) :
    AllOrNothing s op ↔ (op.draws = true → s.failure? op = none) := by
  constructor
  · intro h hop
    cases op with
    | addElement flags e suggest =>
      refine Option.eq_none_iff_forall_ne_some.mpr fun cause hcause => ?_
      exact (s.addElement_halfDrawn flags e suggest).not_unchanged (h cause hcause)
    | _ => cases hop
  · intro h cause hcause
    have hop : op.draws = false := by
      by_contra hdraws
      rw [h (by simpa using hdraws)] at hcause
      cases hcause
    rw [after_eq_of_failure hcause hop]
    exact ⟨rfl, rfl, rfl, rfl, rfl, rfl⟩

/-! ## When drawing fails -/

theorem addConstraint_isOk {s : Sketch} (hs : ∀ d ∈ s.constraints, d.NamesTexts) {c : Constraint}
    (hc : c.NamesTexts) (hkind : c.kind.isDimension = false) :
    ∃ t a, s.addConstraint c = (t, .ok a) ∧ ∀ d ∈ t.constraints, d.NamesTexts := by
  obtain ⟨place, hplace⟩ := Constraint.duplicateIndex?_isOk hc hkind hs
  obtain ⟨text, htext⟩ := Constraint.summary_isOk fun q hq => (hc q hq).isName
  unfold addConstraint
  rw [hplace, htext]
  split
  · exact ⟨s, none, rfl, hs⟩
  · cases place with
    | some i => exact ⟨s, none, rfl, hs⟩
    | none =>
      refine ⟨_, some c, rfl, fun d hd => ?_⟩
      rcases List.mem_append.mp hd with hd | hd
      · exact hs d hd
      · rw [List.mem_singleton.mp hd]
        exact hc

theorem addConstraints_isOk {s : Sketch} (hs : ∀ d ∈ s.constraints, d.NamesTexts)
    {cs : List Constraint} (hcs : Suggestion.Simple cs) :
    ∃ t, s.addConstraints cs = (t, .ok ()) := by
  induction cs generalizing s with
  | nil => exact ⟨s, rfl⟩
  | cons c cs ih =>
    obtain ⟨hc, hcs⟩ := List.forall_mem_cons.mp hcs
    obtain ⟨t, a, ht, htexts⟩ := addConstraint_isOk hs hc.1 hc.2
    rw [addConstraints, ht]
    exact ih htexts hcs

/-- Where constraints name things by texts, an element is added without an error exactly if it has a
kind and no arc has an infinite angle, or if nothing is to be suggested. -/
theorem addElement_failure?_eq_none {s : Sketch} (hs : ∀ c ∈ s.constraints, c.NamesTexts)
    (flags : Flags) (e : Element Float) (suggest : Bool) :
    s.failure? (.addElement flags e suggest) = none ↔
      (suggest = true → flags.isEnabled (.text "auto_constraints") = true →
        e.shape ≠ .foreign ∧ ∀ e' ∈ s.elements ++ [e], e'.shape.hasInfiniteAngle = false) := by
  constructor
  · intro h hsuggest hflag
    subst hsuggest
    cases hdetect : Suggestion.detect flags s.issued e s.elements s.constraints with
    | ok found => exact Suggestion.detect_eq_ok hdetect hflag
    | error err => simp [failure?, Effect.error?, addElement, hdetect] at h
  · intro h
    cases suggest with
    | false => rfl
    | true =>
      have hdetect : ∃ found, Suggestion.detect flags s.issued e s.elements s.constraints =
          .ok found ∧ Suggestion.Simple found.constraints := by
        cases hflag : flags.isEnabled (.text "auto_constraints") with
        | false => exact ⟨{}, by rw [Suggestion.detect, hflag]; rfl, nofun⟩
        | true =>
          obtain ⟨hkind, hangles⟩ := h rfl hflag
          exact Suggestion.detect_isOk flags s.issued hs hkind hangles
      obtain ⟨found, hfound, hsimple⟩ := hdetect
      obtain ⟨t, ht⟩ := addConstraints_isOk
        (s := { s with
          elements := s.elements ++ [e], dirty := true
          issued := s.issued + found.constraints.length }) hs hsimple
      simp [failure?, Effect.error?, addElement, hfound, ht]

/-- A drawing with an infinite angle has no solution. -/
theorem solve_eq_none_of_infiniteAngle {s : Sketch} {e : Element Float} (he : e ∈ s.elements)
    (hangle : e.shape.hasInfiniteAngle = true) (flags : Flags)
    (options : Option (Options Float)) : (s.solve flags options).2 = none := by
  cases hcycle : s.cycle flags options with
  | error cause => exact (solve_abandoned hcycle).1
  | ok result =>
    obtain ⟨g, _, hg, _⟩ := cycle_eq_ok hcycle
    have hfinite := Graph.ofElements_isOk_iff.mp ⟨g, hg⟩ e he
    rw [hangle] at hfinite
    cases hfinite

/-- **All or nothing, but for drawing.** On every sketch an operation is all or nothing exactly if it
is not a failing attempt to draw an element. Such an attempt leaves the element in the sketch, and if
that has an infinite angle, the sketch cannot be solved any more. Where constraints name things by
texts, drawing is all or nothing exactly if nothing is to be suggested, or if the element has a kind
and no arc has an infinite angle. -/
theorem all_or_nothing_but_for_drawing (s : Sketch) :
    (∀ op, AllOrNothing s op ↔ (op.draws = true → s.failure? op = none)) ∧
    (∀ flags e suggest,
      HalfDrawn s (s.after (.addElement flags e suggest)) e ∧
      (e.shape.hasInfiniteAngle = true → ∀ flags' options,
        ((s.after (.addElement flags e suggest)).solve flags' options).2 = none)) ∧
    ((∀ c ∈ s.constraints, c.NamesTexts) → ∀ flags e suggest,
      AllOrNothing s (.addElement flags e suggest) ↔
        (suggest = true → flags.isEnabled (.text "auto_constraints") = true →
          e.shape ≠ .foreign ∧ ∀ e' ∈ s.elements ++ [e], e'.shape.hasInfiniteAngle = false)) := by
  refine ⟨s.allOrNothing_iff, fun flags e suggest => ?_, fun hs flags e suggest => ?_⟩
  · have hdrawn := s.addElement_halfDrawn flags e suggest
    exact ⟨hdrawn, solve_eq_none_of_infiniteAngle hdrawn.mem⟩
  · rw [allOrNothing_iff, ← addElement_failure?_eq_none hs]
    exact ⟨fun h => h rfl, fun h _ => h⟩

/-- An arc that starts at an infinite angle. -/
def endlessArc : Element Float := ⟨.text "A", .arc ⟨0.0, 0.0⟩ 1.0 (1.0 / 0.0) 0.0⟩

/-- Drawing such an arc fails and leaves it in the sketch, which then can neither be solved nor rid
of the arc. -/
theorem endlessArc_half_drawn :
    let s := fresh (.text "s") (.text "s") 0
    let op := Operation.addElement .standard endlessArc true
    (s.failure? op).isSome = true ∧ (s.after op).elements.length = 1 ∧ (s.after op).dirty = true ∧
      ¬ AllOrNothing s op ∧ ((s.after op).solve .standard none).2 = none ∧
      ((s.after op).failure? (.removeElement (.text "A"))).isSome = true := by
  intro s op
  have hfails : (s.failure? op).isSome = true := by decide +kernel
  refine ⟨hfails, by decide +kernel, by decide +kernel, fun h => ?_, ?_, by decide +kernel⟩
  · rw [(s.allOrNothing_iff op).mp h rfl] at hfails
    cases hfails
  · have hdrawn := s.addElement_halfDrawn .standard endlessArc true
    exact solve_eq_none_of_infiniteAngle hdrawn.mem (by decide +kernel) .standard none

end Sketch

end Drafting
