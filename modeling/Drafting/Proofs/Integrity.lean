import Drafting.Proofs.ErrorBoundary
import Drafting.Proofs.FixedPoints
import Drafting.Proofs.Numbers
import Drafting.Proofs.References
import Drafting.Proofs.Removal

/-!
Reference integrity over whole runs. A sketch is sound if its elements have texts for identifiers
and finite fields, and if everything its constraints name is a part of its elements. An operation is
admissible if the element it brings is such an element, if the constraint it brings names parts of
the drawing, and if an element that it replaces keeps its kind and loses no control point.

Every admissible operation keeps a sketch sound, solves included. In a sound sketch every reference
has a referent, so that a solve fails for many reasons but never for want of one.
-/

namespace Drafting

open Scalar

/-! ## Elements -/

/-- An element as drawing programs make it: a text for an identifier, and finite fields. -/
structure Element.Proper (e : Element Float) : Prop where
  text : ∃ name, e.id = .text name
  finite : e.shape.isFinite = true

/-- The places of a finite shape can be computed. -/
theorem Shape.places_isOk {shape : Shape Float} (h : shape.isFinite = true) :
    ∃ places, shape.places = .ok places := by
  refine Shape.places_isOk_iff.mpr ?_
  cases shape with
  | line | hline | vline | rectangle | circle | spline | foreign => rfl
  | arc center radius a b =>
    simp only [isFinite, Bool.and_eq_true] at h
    rw [hasInfiniteAngle, isInfinite_of_isFinite h.1.2, isInfinite_of_isFinite h.2]
    rfl

/-- A shape of the same kind as another, with at least as many control points. -/
def Shape.Extends {α : Type} (new old : Shape α) : Prop :=
  new.kind? = old.kind? ∧ old.outline.2 ≤ new.outline.2

theorem Shape.Extends.provides {α : Type} {e e' : Element α} (h : e'.shape.Extends e.shape)
    (hid : e'.id = e.id) : e.Provides e' := by
  obtain ⟨id, shape⟩ := e
  obtain ⟨id', shape'⟩ := e'
  obtain ⟨hkind, hcount⟩ := h
  dsimp only at hid hkind hcount
  subst hid
  cases shape with
  | spline points =>
    cases shape' with
    | spline points' =>
      refine ⟨?_, fun _ h => h, fun _ h => h⟩
      intro name hname
      obtain ⟨slot, hslot, rfl⟩ := List.mem_map.mp hname
      obtain ⟨i, hi, rfl⟩ := List.mem_map.mp hslot
      have hi' : i < points'.length := Nat.lt_of_lt_of_le (List.mem_range.mp hi) hcount
      exact List.mem_map.mpr ⟨_, List.mem_map.mpr ⟨i, List.mem_range.mpr hi', rfl⟩, rfl⟩
    | line | hline | vline | rectangle | circle | arc | foreign => cases hkind
  | line | hline | vline | rectangle | circle | arc | foreign =>
    refine Element.Alike.provides ⟨rfl, ?_⟩
    cases shape' <;> first | rfl | cases hkind

/-! ## Sound sketches -/

namespace Sketch

/-- Elements as drawing programs make them, and constraints that refer to them. -/
structure Sound (s : Sketch) : Prop where
  elements : ∀ e ∈ s.elements, e.Proper
  references : ∀ c ∈ s.constraints, c.RefersTo s.elements

/-- What an operation may bring: proper elements, constraints that name parts of the drawing, and
replacements that keep the kind and lose no control point. Everything else is free. -/
def Admissible (s : Sketch) : Operation → Prop
  | .addElement _ e _ => e.Proper
  | .updateElement _ e _ =>
    e.Proper ∧ ∀ old, s.element? e.id = some old → e.shape.Extends old.shape
  | .addConstraint c => ∃ g, Graph.ofElements s.elements = .ok g ∧ g.Lists c
  | _ => True

theorem Sound.graph {s : Sketch} (hs : s.Sound) :
    ∃ g, Graph.ofElements s.elements = .ok g ∧ g.Covers s.elements := by
  obtain ⟨g, hg⟩ := Graph.ofElements_isOk fun e he => Shape.places_isOk (hs.elements e he).finite
  exact ⟨g, hg, Graph.ofElements_covers hg⟩

/-- Elements that provide the parts of the old ones keep a sketch sound. -/
theorem Sound.rebuilt {s t : Sketch} (hs : s.Sound) (hproper : ∀ e ∈ t.elements, e.Proper)
    (hprovides : ∀ e ∈ s.elements, ∃ e' ∈ t.elements, e.Provides e')
    (hconstraints : t.constraints = s.constraints) : t.Sound := by
  refine ⟨hproper, fun c hc => ?_⟩
  rw [hconstraints] at hc
  exact (hs.references c hc).mono hprovides

/-- A solve leaves proper elements proper. -/
theorem cycle_proper {s : Sketch} (hs : ∀ e ∈ s.elements, e.Proper) {flags : Flags}
    {options : Option (Options Float)} {r : Solution} {es : List (Element Float)}
    (h : s.cycle flags options = .ok (r, es)) : ∀ e ∈ es, e.Proper := by
  intro e' he'
  obtain ⟨_, _, _, _, _, ⟨_, rfl⟩ | ⟨_, hwritten⟩⟩ := cycle_eq_ok h
  · exact hs e' he'
  · obtain ⟨e, he, new, hnew, rfl⟩ := exists_of_forall₂_right (Solved.elements_eq_ok hwritten) he'
    exact ⟨(hs e he).text, hnew.isFinite (hs e he).finite⟩

theorem Sound.solve {s : Sketch} (hs : s.Sound) (flags : Flags)
    (options : Option (Options Float)) : (s.solve flags options).1.Sound := by
  cases h : s.cycle flags options with
  | error cause =>
    obtain ⟨-, ht⟩ := solve_abandoned h
    exact ⟨ht.elements ▸ hs.elements, ht.constraints ▸ ht.elements ▸ hs.references⟩
  | ok result =>
    rw [solve_eq_of_ok h]
    refine hs.rebuilt (cycle_proper hs.elements h) (fun e he => ?_) rfl
    obtain ⟨e', he', halike⟩ := exists_of_forall₂_left (cycle_elements h) he
    exact ⟨e', he', halike.provides⟩

theorem Sound.addElement {s : Sketch} (hs : s.Sound) {e : Element Float} (he : e.Proper)
    (flags : Flags) (suggest : Bool) : (s.addElement flags e suggest).1.Sound := by
  obtain ⟨added, issued, hadded, h⟩ := s.addElement_cases flags e suggest
  rw [h]
  constructor
  · intro e' he'
    rcases List.mem_append.mp he' with he' | he'
    · exact hs.elements e' he'
    · exact List.mem_singleton.mp he' ▸ he
  · intro c hc
    rcases List.mem_append.mp hc with hc | hc
    · exact (hs.references c hc).subset (List.subset_append_left _ _)
    · rcases hadded with rfl | ⟨found, hfound, hsub⟩
      · cases hc
      · exact Suggestion.detect_refersTo hfound c (hsub.subset hc)

theorem Sound.updateElement {s : Sketch} (hs : s.Sound) {e : Element Float} (he : e.Proper)
    (hextends : ∀ old, s.element? e.id = some old → e.shape.Extends old.shape) (flags : Flags)
    (thenSolve : Bool) : (s.updateElement flags e thenSolve).1.Sound := by
  rcases s.updateElement_cases flags e thenSolve with ⟨-, h⟩ | ⟨elements, helements, h⟩
  · rw [h]
    exact hs
  · obtain ⟨l, old, r, hold, hnew, hfind⟩ := replaceFirst?_eq_some helements
    obtain ⟨name, hname⟩ := he.text
    have hbeq := List.find?_some hfind
    rw [hname, Value.beq_text_iff] at hbeq
    -- what was replaced is the element that the operation had to extend
    have hprovides : old.Provides e := (hextends old hfind).provides (hname.trans hbeq.symm)
    have hsound : Sound { s with elements, dirty := true } := by
      refine hs.rebuilt ?_ ?_ rfl
      · intro e' he'
        rw [hnew] at he'
        rcases List.mem_append.mp he' with he' | he'
        · exact hs.elements e' (by rw [hold]; simp [he'])
        · rcases List.mem_cons.mp he' with rfl | he'
          · exact he
          · exact hs.elements e' (by rw [hold]; simp [he'])
      · intro e' he'
        rw [hold] at he'
        rcases List.mem_append.mp he' with he' | he'
        · exact ⟨e', by rw [hnew]; simp [he'], .refl e'⟩
        · rcases List.mem_cons.mp he' with rfl | he'
          · exact ⟨e, by rw [hnew]; simp, hprovides⟩
          · exact ⟨e', by rw [hnew]; simp [he'], .refl e'⟩
    rw [h]
    split
    · exact hsound.solve flags none
    · exact hsound

/-- A constraint that names no part of an element refers to the other elements. -/
theorem refersTo_without {c : Constraint} {l r : List (Element Float)} {e : Element Float}
    (hc : c.RefersTo (l ++ e :: r)) {g : Graph Float} (hg : g.Covers [e])
    (hnone : c.touches g = false) : c.RefersTo (l ++ r) := by
  have hfree : ∀ q ∈ c.references, ∀ name, q = .text name → q ∉ g.names := by
    rintro q hq name rfl hmem
    have hcontains : g.names.contains (.text name) = true :=
      List.contains_iff_exists_mem_beq.mpr ⟨_, hmem, by simp⟩
    rw [Constraint.touches, List.any_eq_false] at hnone
    exact hnone _ hq hcontains
  have hother : ∀ e' ∈ l ++ e :: r, e' = e ∨ e' ∈ l ++ r := by
    intro e' he'
    simp only [List.mem_append, List.mem_cons] at he' ⊢
    rcases he' with he' | he' | he'
    · exact .inr (.inl he')
    · exact .inl he'
    · exact .inr (.inr he')
  constructor
  · intro q hq
    obtain ⟨e', he', name, hname, rfl⟩ := hc.points q hq
    rcases hother e' he' with rfl | he'
    · obtain ⟨v, hv, hid⟩ := hg.complete e' (by simp) name hname
      refine absurd ?_ (hfree (.text name) (by simp [Constraint.references, hq]) name rfl)
      simp only [Graph.names, List.mem_append]
      exact .inl (.inl (List.mem_map.mpr ⟨v, hv, hid⟩))
    · exact ⟨e', he', name, hname, rfl⟩
  · intro q hq
    obtain ⟨e', he', edge, hedge, rfl⟩ := hc.lines q hq
    rcases hother e' he' with rfl | he'
    · obtain ⟨⟨name, hname⟩, -⟩ := Element.edges_closed hedge
      refine absurd ?_ (hfree edge.id (by simp [Constraint.references, hq]) name hname)
      simp only [Graph.names, List.mem_append, hg.edges]
      exact .inl (.inr (List.mem_map.mpr ⟨edge, by simp [hedge], rfl⟩))
    · exact ⟨e', he', edge, hedge, rfl⟩
  · intro q hq
    obtain ⟨e', he', ring, hring, rfl⟩ := hc.circles q hq
    rcases hother e' he' with rfl | he'
    · obtain ⟨hid, -⟩ := Element.rings_closed hring
      refine absurd ?_ (hfree ring.id (by simp [Constraint.references, hq]) _ hid)
      simp only [Graph.names, List.mem_append, hg.rings]
      exact .inr (List.mem_map.mpr ⟨ring, by simp [hring], rfl⟩)
    · exact ⟨e', he', ring, hring, rfl⟩

theorem Sound.removeElement {s : Sketch} (hs : s.Sound) (id : Value) :
    (s.removeElement id).1.Sound := by
  rcases s.removeElement_exact id fun e he _ => (hs.elements e he).text with
    ⟨-, h⟩ | ⟨e, -, ⟨⟨err, h⟩, -⟩ | ⟨-, t, n, l, r, g, h, hremoves⟩⟩
  · rw [h]
    exact hs
  · rw [h]
    exact hs
  · rw [h, hremoves.left]
    constructor
    · intro e' he'
      refine hs.elements e' ?_
      rw [hremoves.split]
      rcases List.mem_append.mp he' with he' | he'
      · simp [he']
      · simp [he']
    · -- a constraint that is left names no part of the element that went
      intro c hc
      obtain ⟨hc, hnone⟩ := List.mem_filter.mp hc
      have hrefers := hs.references c hc
      rw [hremoves.split] at hrefers
      exact refersTo_without hrefers (Graph.ofElements_covers hremoves.graph) (by simpa using hnone)

/-- Constraints that name what old ones named keep a sketch sound. -/
theorem Sound.reconstrained {s t : Sketch} (hs : s.Sound) (helements : t.elements = s.elements)
    (h : ∀ c ∈ t.constraints, c.RefersTo s.elements) : t.Sound := by
  refine ⟨?_, ?_⟩
  · rw [helements]
    exact hs.elements
  · rw [helements]
    exact h

theorem Sound.addConstraint {s : Sketch} (hs : s.Sound) {c : Constraint}
    (hc : c.RefersTo s.elements) : (s.addConstraint c).1.Sound := by
  rcases s.addConstraint_cases c with h | ⟨-, -, h⟩
  · rw [h]
    exact hs
  · rw [h]
    refine hs.reconstrained rfl fun c' hc' => ?_
    rcases List.mem_append.mp hc' with hc' | hc'
    · exact hs.references c' hc'
    · exact List.mem_singleton.mp hc' ▸ hc

theorem Sound.removeConstraint {s : Sketch} (hs : s.Sound) (id : Value) :
    (s.removeConstraint id).1.Sound := by
  rcases s.removeConstraint_cases id with h | ⟨c, _, h⟩
  · rw [h]
    exact hs
  · rw [h]
    refine hs.reconstrained rfl fun d hd => hs.references d ?_
    exact (map_takeOut_sublist c s.constraints).subset hd

theorem Sound.updateValue {s : Sketch} (hs : s.Sound) (id value : Value) :
    (s.updateValue id value).1.Sound := by
  rcases s.updateValue_cases id value with h | ⟨c, constraints, hc, hreplace, h⟩
  · rw [h]
    exact hs
  · rw [h]
    obtain ⟨l, old, r, hold, hnew, _⟩ := replaceFirst?_eq_some hreplace
    have hcrefers := hs.references c (List.mem_of_find?_eq_some hc)
    refine hs.reconstrained rfl fun c' hc' => ?_
    rw [hnew] at hc'
    rcases List.mem_append.mp hc' with hc' | hc'
    · exact hs.references c' (by rw [hold]; simp [hc'])
    · rcases List.mem_cons.mp hc' with rfl | hc'
      · exact ⟨hcrefers.points, hcrefers.lines, hcrefers.circles⟩
      · exact hs.references c' (by rw [hold]; simp [hc'])

/-- Every admissible operation keeps a sketch sound. -/
theorem after_sound (s : Sketch) (op : Operation) (hop : s.Admissible op) (hs : s.Sound) :
    (s.after op).Sound := by
  cases op with
  | addElement flags e suggest => exact hs.addElement hop flags suggest
  | updateElement flags e thenSolve => exact hs.updateElement hop.1 hop.2 flags thenSolve
  | removeElement id => exact hs.removeElement id
  | addConstraint c =>
    obtain ⟨g, hg, hlists⟩ := hop
    exact hs.addConstraint ((Graph.ofElements_covers hg).refersTo hlists)
  | removeConstraint id => exact hs.removeConstraint id
  | updateValue id value => exact hs.updateValue id value
  | clearConstraints => exact hs.reconstrained rfl fun _ hc => nomatch hc
  | solve flags options => exact hs.solve flags options

/-! ## Solves do not miss a referent -/

/-- Axis constraints of a sound sketch exist and refer to its elements. -/
theorem Sound.axisConstraints {s : Sketch} (hs : s.Sound) (issued : Nat) :
    ∃ cs, Implicit.axisConstraints issued s.elements = .ok cs ∧
      ∀ c ∈ cs, c.RefersTo s.elements := by
  obtain ⟨cs, hcs⟩ :=
    Implicit.axisConstraints_isOk issued fun e he => (hs.elements e he).text
  exact ⟨cs, hcs, Implicit.axisConstraints_refersTo hcs⟩

theorem Sound.keeping {s : Sketch} (hs : s.Sound) :
    ∃ keep, s.keeping = .ok keep ∧ ∀ c ∈ keep, c.RefersTo s.elements := by
  unfold Sketch.keeping
  split
  · exact hs.axisConstraints s.issued
  · exact ⟨[], rfl, fun _ hc => nomatch hc⟩

end Sketch

/-- Solved parts have all the names that an element needs. -/
structure Solved.Serves (s : Solved Float) (e : Element Float) : Prop where
  vertices : ∀ name ∈ e.vertexNames, ∃ v ∈ s.vertices, v.id = .text name
  rings : ∀ r ∈ e.rings, ∃ r' ∈ s.rings, r'.id = r.id

/-- Solved parts with all names of a drawing serve its elements. -/
theorem Graph.Covers.serves {g : Graph Float} {es : List (Element Float)} (hg : g.Covers es)
    {s : Solved Float} (hvertices : g.vertices.map (·.id) ⊆ s.vertices.map (·.id))
    (hrings : g.rings.map (·.id) ⊆ s.rings.map (·.id)) : ∀ e ∈ es, s.Serves e := by
  intro e he
  constructor
  · intro name hname
    obtain ⟨v, hv, hid⟩ := hg.complete e he name hname
    obtain ⟨w, hw, hwid⟩ := List.mem_map.mp (hvertices (List.mem_map_of_mem hv))
    exact ⟨w, hw, hwid.trans hid⟩
  · intro r hr
    have hmem : r ∈ g.rings := by
      rw [hg.rings]
      exact List.mem_flatMap.mpr ⟨e, he, hr⟩
    exact List.mem_map.mp (hrings (List.mem_map_of_mem hmem))

theorem pointAtAngle_error {α : Type} [Scalar α] {center : Point α} {radius angle : α} {e : Error}
    (h : pointAtAngle center radius angle = .error e) : e.isDangling = false := by
  unfold pointAtAngle at h
  split at h
  · cases h
    rfl
  · cases h

namespace Solved

variable {s : Solved Float} {e : Element Float}

theorem Serves.point_isOk (hs : s.Serves e) {role : Role}
    (h : vertexName e.id role none ∈ e.vertexNames) (a : Point Float) :
    ∃ p, s.point e.id role a = .ok p := by
  obtain ⟨v, hv, hid⟩ := hs.vertices _ h
  obtain ⟨w, hw⟩ := exists_vertex? hv hid
  exact ⟨position w a, by rw [point, hw]⟩

theorem Serves.point_ne_error (hs : s.Serves e) {role : Role}
    (h : vertexName e.id role none ∈ e.vertexNames) {a : Point Float} {err : Error} :
    s.point e.id role a ≠ .error err := by
  obtain ⟨p, hp⟩ := hs.point_isOk h a
  rw [hp]
  exact nofun

theorem Serves.ring_isOk (hs : s.Serves e) {r : Ring Float} (hr : r ∈ e.rings) :
    ∃ r', s.ring e.id = .ok r' := by
  obtain ⟨r', hr', hid⟩ := hs.rings r hr
  rw [(Element.rings_closed hr).1] at hid
  obtain ⟨w, hw⟩ := exists_ring? hr' hid
  exact ⟨w, by rw [ring, hw]⟩

theorem Serves.ring_ne_error (hs : s.Serves e) {r : Ring Float} (hr : r ∈ e.rings) {err : Error} :
    s.ring e.id ≠ .error err := by
  obtain ⟨r', hr'⟩ := hs.ring_isOk hr
  rw [hr']
  exact nofun

theorem center?_error {r : Ring Float} {err : Error} (h : s.center? r = .error err) :
    err.isDangling = false := by
  rcases bind_eq_error.mp h with h | ⟨_, _, h⟩
  · exact Value.asKey_error h
  · cases h

/-- Writing an element back does not miss a part that is there. -/
theorem Serves.element_error (hs : s.Serves e) {err : Error} (h : s.element e = .error err) :
    err.isDangling = false := by
  rcases bind_eq_error.mp h with h | ⟨_, _, h⟩
  · obtain ⟨id, shape⟩ := e
    cases shape with
    | line | hline | vline =>
      rcases bind_eq_error.mp h with h | ⟨_, _, h⟩
      · exact absurd h (hs.point_ne_error (by simp [Element.vertexNames, Shape.slots]))
      · rcases bind_eq_error.mp h with h | ⟨_, _, h⟩
        · exact absurd h (hs.point_ne_error (by simp [Element.vertexNames, Shape.slots]))
        · cases h
    | rectangle | spline | foreign => cases h
    | circle =>
      rcases bind_eq_error.mp h with h | ⟨_, _, h⟩
      · exact absurd h (hs.ring_ne_error (List.mem_singleton.mpr rfl))
      · rcases bind_eq_error.mp h with h | ⟨_, _, h⟩
        · exact center?_error h
        · cases h
    | arc =>
      rcases bind_eq_error.mp h with h | ⟨_, _, h⟩
      · exact absurd h (hs.ring_ne_error (List.mem_singleton.mpr rfl))
      · rcases bind_eq_error.mp h with h | ⟨_, _, h⟩
        · exact pointAtAngle_error h
        · rcases bind_eq_error.mp h with h | ⟨_, _, h⟩
          · exact absurd h (hs.point_ne_error (by simp [Element.vertexNames, Shape.slots]))
          · rcases bind_eq_error.mp h with h | ⟨_, _, h⟩
            · exact pointAtAngle_error h
            · rcases bind_eq_error.mp h with h | ⟨_, _, h⟩
              · exact absurd h (hs.point_ne_error (by simp [Element.vertexNames, Shape.slots]))
              · rcases bind_eq_error.mp h with h | ⟨_, _, h⟩
                · exact center?_error h
                · cases h
  · cases h

theorem elements_error {es : List (Element Float)} (hs : ∀ e ∈ es, s.Serves e) {err : Error}
    (h : s.elements es = .error err) : err.isDangling = false := by
  rcases bind_eq_error.mp h with h | ⟨_, _, h⟩
  · obtain ⟨v, _, hv⟩ := mapM_eq_error h
    exact Value.asKey_error hv
  · obtain ⟨e, he, herr⟩ := mapM_eq_error h
    exact (hs e he).element_error herr

end Solved

namespace Sketch

/-- A solve of a sound sketch does not fail for want of a referent. -/
theorem Sound.cycle_error {s : Sketch} (hs : s.Sound) {flags : Flags}
    {options : Option (Options Float)} {err : Error}
    (h : s.cycle flags options = .error err) : err.isDangling = false := by
  obtain ⟨g, hgraph, hg⟩ := hs.graph
  obtain ⟨keep, hkeep, hkeeprefers⟩ := hs.keeping
  have hresolves : ∀ c ∈ s.constraints ++ keep, g.Resolves c := by
    intro c hc
    rcases List.mem_append.mp hc with hc | hc
    · exact hg.resolves (hs.references c hc)
    · exact hg.resolves (hkeeprefers c hc)
  rw [cycle_eq, hgraph, hkeep] at h
  change (Solver.solve {} flags g (s.constraints ++ keep) options >>= s.written) = _ at h
  rcases bind_eq_error.mp h with h | ⟨r, hr, h⟩
  · -- the chosen method fails only where compiling does
    rw [Solver.solve_eq] at h
    split at h
    · cases h
    · dsimp only at h
      rw [map_eq_error, Selection.choose_backend] at h
      refine System.compile_error (Method.solve_eq_error h) fun c hc => ?_
      exact hresolves c (List.mem_of_mem_filter hc)
  · unfold written at h
    split at h
    · cases h
    · rename_i hstatus
      obtain ⟨found, hfound, hvertices, hrings, _⟩ := Solver.solve_eq_ok hr hstatus
      obtain ⟨hids, hringids⟩ := Method.solve_names hfound
      refine Solved.elements_error (hg.serves ?_ ?_) (map_eq_error.mp h)
      · rw [hvertices, hids]
        exact List.Subset.refl _
      · rw [hrings, ringIds_of_pairs hringids]
        exact List.Subset.refl _

/-- **Reference integrity.** After every run of admissible operations from a fresh sketch the
drawing can be taken apart, every reference of its constraints and of the constraints that keep
rectangles along the axes has a referent, and no solve fails for want of one. -/
theorem run_references_resolve (name id : Value) (issued : Nat) (ops : List Operation)
    (hops : (fresh name id issued).Permits Admissible ops) :
    let t := (fresh name id issued).run ops
    (∃ g, Graph.ofElements t.elements = .ok g ∧ (∀ c ∈ t.constraints, g.Resolves c) ∧
      ∀ next, ∃ cs, Implicit.axisConstraints next t.elements = .ok cs ∧
        ∀ c ∈ cs, g.Resolves c) ∧
    ∀ flags options what name owner,
      t.cycle flags options ≠ .error (.dangling what name owner) := by
  intro t
  have ht : t.Sound := run_keeps after_sound hops ⟨nofun, nofun⟩
  obtain ⟨g, hgraph, hg⟩ := ht.graph
  refine ⟨⟨g, hgraph, fun c hc => hg.resolves (ht.references c hc), fun next => ?_⟩, ?_⟩
  · obtain ⟨cs, hcs, hrefers⟩ := ht.axisConstraints next
    exact ⟨cs, hcs, fun c hc => hg.resolves (hrefers c hc)⟩
  · intro flags options what name owner h
    exact absurd (ht.cycle_error h) nofun

/-- A line is drawn and replaced by another line, its length is constrained, and all is solved. -/
def lineRun : List Operation :=
  [.addElement .standard ⟨.text "a", .line ⟨0.0, 0.0⟩ ⟨10.0, 1.0⟩⟩ false,
    .updateElement .standard ⟨.text "a", .line ⟨0.0, 0.0⟩ ⟨7.0, 7.0⟩⟩ false,
    .addConstraint (.length (.text "d") (.text "a_line") (.float 5.0)),
    .solve .standard none]

theorem run_references_resolve_lineRun :
    (fresh .null .null 0).Permits Admissible lineRun ∧
      ∃ g, Graph.ofElements ((fresh .null .null 0).run lineRun).elements = .ok g ∧
        ∀ c ∈ ((fresh .null .null 0).run lineRun).constraints, g.Resolves c := by
  have hops : (fresh .null .null 0).Permits Admissible lineRun := by
    refine ⟨⟨⟨"a", rfl⟩, by decide⟩, ⟨⟨⟨"a", rfl⟩, by decide⟩, ?_⟩, ⟨_, rfl, ?_⟩, trivial, trivial⟩
    · intro old hold
      cases hold
      exact ⟨by decide, by decide⟩
    · refine ⟨nofun, fun q hq => ?_, nofun⟩
      obtain rfl := List.mem_singleton.mp hq
      exact List.mem_cons_self
  obtain ⟨⟨g, hg, hresolves, -⟩, -⟩ := run_references_resolve _ _ _ _ hops
  exact ⟨hops, g, hg, hresolves⟩

end Sketch

end Drafting
