import Drafting.Proofs.Runs
import Drafting.Sketch.Saved

/-!
The saved form loses nothing. Each sort of thing that is saved has a writer and a reader of its own:
points, the seven shapes, elements, constraints, sketches. For each of them reading gives back what
was written, and each level is proved from the one below.

Readers are more tolerant than writers. A point may be read from a list, a number from a truth value
or a text, and a constraint without an identifier gets a fresh one. Whatever was read in such a way
has a saved form in which nothing is left to tolerate, and that is read as the same thing.
-/

namespace Drafting

/-! ## Points and shapes -/

theorem Point.ofSaved_toSaved (p : Point Float) : Point.ofSaved p.toSaved = .ok p := rfl

theorem Point.ofSaved_toSaved_list (ps : List (Point Float)) :
    (ps.map Point.toSaved).mapM Point.ofSaved = .ok ps := by
  rw [mapM_eq_ok, List.forall₂_map_left_iff]
  exact List.forall₂_same.mpr fun p _ => p.ofSaved_toSaved

/-- A shape is read from its fields, in an object that starts with type and identifier. -/
theorem Shape.ofSaved_fields {shape : Shape Float} {kind : ElementKind}
    (hkind : shape.kind? = some kind) (type id : Value) :
    Shape.ofSaved kind (.object (("type", type) :: ("id", id) :: shape.fields)) = .ok shape := by
  cases shape with
  | line | hline | vline | rectangle | circle | arc =>
    cases hkind
    rfl
  | spline points =>
    cases hkind
    have hpoints := Point.ofSaved_toSaved_list points
    exact bind_eq_ok.mpr ⟨.list (points.map Point.toSaved), rfl, bind_eq_ok.mpr
      ⟨points.map Point.toSaved, rfl, bind_eq_ok.mpr ⟨points, hpoints, rfl⟩⟩⟩
  | foreign => cases hkind

/-- A shape that was read is of the kind it was read as. -/
theorem Shape.kind?_of_ofSaved {kind : ElementKind} {v : Value} {shape : Shape Float}
    (h : Shape.ofSaved kind v = .ok shape) : shape.kind? = some kind := by
  cases kind with
  | line | hline | vline | rectangle | circle =>
    obtain ⟨_, _, h⟩ := bind_eq_ok.mp h
    obtain ⟨_, _, h⟩ := bind_eq_ok.mp h
    cases h
    rfl
  | arc =>
    obtain ⟨_, _, h⟩ := bind_eq_ok.mp h
    obtain ⟨_, _, h⟩ := bind_eq_ok.mp h
    obtain ⟨_, _, h⟩ := bind_eq_ok.mp h
    obtain ⟨_, _, h⟩ := bind_eq_ok.mp h
    cases h
    rfl
  | spline =>
    obtain ⟨_, _, h⟩ := bind_eq_ok.mp h
    obtain ⟨_, _, h⟩ := bind_eq_ok.mp h
    obtain ⟨_, _, h⟩ := bind_eq_ok.mp h
    cases h
    rfl

/-! ## Elements -/

theorem ElementKind.ofSaved_tag (kind : ElementKind) (entries : List (String × Value)) :
    ElementKind.ofSaved (.object (("type", .text kind.tag) :: entries)) = .ok kind := by
  cases kind <;> rfl

/-- An element of one of the seven kinds is read as it was saved. -/
theorem Element.ofSaved_toSaved {e : Element Float} {kind : ElementKind}
    (hkind : e.shape.kind? = some kind) :
    ∃ v, e.toSaved = .ok v ∧ Element.ofSaved v = .ok e := by
  refine ⟨.object (("type", .text kind.tag) :: ("id", e.id) :: e.shape.fields), ?_, ?_⟩
  · rw [Element.toSaved, hkind]
  · have htag := kind.ofSaved_tag (("id", e.id) :: e.shape.fields)
    have hshape := Shape.ofSaved_fields hkind (.text kind.tag) e.id
    exact bind_eq_ok.mpr ⟨kind, htag, bind_eq_ok.mpr ⟨e.shape, hshape, rfl⟩⟩

/-- A value that is read as an element makes it one of the seven kinds. -/
theorem Element.kind?_of_ofSaved {v : Value} {e : Element Float} (h : Element.ofSaved v = .ok e) :
    ∃ kind, e.shape.kind? = some kind := by
  obtain ⟨kind, _, h⟩ := bind_eq_ok.mp h
  obtain ⟨shape, hshape, h⟩ := bind_eq_ok.mp h
  obtain ⟨id, _, h⟩ := bind_eq_ok.mp h
  cases h
  exact ⟨kind, Shape.kind?_of_ofSaved hshape⟩

/-! ## Constraints -/

/-- What a constraint needs for its saved form to keep all of it: an identifier that is not taken
for a missing one, and a target value that is none or a floating-point number. -/
structure Constraint.Savable (c : Constraint) : Prop where
  id : c.id.truthy = true
  value : c.value = .null ∨ ∃ x, c.value = .float x

/-- A savable constraint is read as it was saved; the fresh identifier is not used. -/
theorem Constraint.Savable.ofSaved_toSaved {c : Constraint} (hc : c.Savable) (fresh : Value) :
    Constraint.ofSaved fresh c.toSaved = .ok c := by
  have hread : Constraint.ofSaved fresh c.toSaved =
      .ok { c with id := if c.id.truthy then c.id else fresh } := by
    obtain ⟨kind, id, points, lines, circles, value, enabled⟩ := c
    have hvalue : value = .null ∨ ∃ x, value = .float x := hc.value
    rcases hvalue with rfl | ⟨x, rfl⟩
    · cases kind <;> rfl
    · cases kind <;> rfl
  rw [hread, if_pos hc.id]

theorem Sketch.constraintsOfSaved_toSaved {cs : List Constraint} (hcs : ∀ c ∈ cs, c.Savable)
    (issued : Nat) : constraintsOfSaved issued (cs.map (·.toSaved)) = .ok cs := by
  induction cs generalizing issued with
  | nil => rfl
  | cons c cs ih =>
    have hc := (hcs c (by simp)).ofSaved_toSaved (.issued issued)
    have hrest := ih (fun c' hc' => hcs c' (by simp [hc'])) (issued + 1)
    exact bind_eq_ok.mpr ⟨c, hc, bind_eq_ok.mpr ⟨cs, hrest, rfl⟩⟩

/-! ## Sketches -/

/-- What a sketch gets back from its saved form: all of its drawing, and the record of a sketch that
was never solved or changed. -/
structure Sketch.Restores (s t : Sketch) : Prop where
  name : t.name = s.name
  id : t.id = s.id
  elements : t.elements = s.elements
  constraints : t.constraints = s.constraints
  state : t.state = .editing
  valid : t.valid = true
  dirty : t.dirty = false
  errorMessage : t.errorMessage = none

theorem Sketch.ofSaved_toSaved {s : Sketch} (helements : ∀ e ∈ s.elements, e.shape.kind? ≠ none)
    (hconstraints : ∀ c ∈ s.constraints, c.Savable) (issued : Nat) :
    ∃ v t, s.toSaved = .ok v ∧ Sketch.ofSaved issued v = .ok t ∧ s.Restores t := by
  have hsaved : ∀ e ∈ s.elements, ∃ v, e.toSaved = .ok v ∧ Element.ofSaved v = .ok e := by
    intro e he
    obtain ⟨kind, hkind⟩ := Option.ne_none_iff_exists'.mp (helements e he)
    exact Element.ofSaved_toSaved hkind
  obtain ⟨vs, hvs, hes⟩ := mapM_inverse hsaved
  have hcs := constraintsOfSaved_toSaved hconstraints (issued + 1)
  let t : Sketch :=
    { fresh s.name s.id (issued + 1 + s.constraints.length) with
      elements := s.elements, constraints := s.constraints }
  refine ⟨_, t, bind_eq_ok.mpr ⟨vs, hvs, rfl⟩, ?_, ⟨rfl, rfl, rfl, rfl, rfl, rfl, rfl, rfl⟩⟩
  refine bind_eq_ok.mpr ⟨s.name, rfl, bind_eq_ok.mpr ⟨s.id, rfl, ?_⟩⟩
  refine bind_eq_ok.mpr ⟨.list vs, rfl, bind_eq_ok.mpr ⟨vs, rfl, ?_⟩⟩
  refine bind_eq_ok.mpr ⟨s.elements, hes, bind_eq_ok.mpr ⟨.list _, rfl, ?_⟩⟩
  exact bind_eq_ok.mpr ⟨_, rfl, bind_eq_ok.mpr ⟨s.constraints, hcs, rfl⟩⟩

/-- **The saved form loses nothing.** A sketch whose elements are of the seven kinds and whose
constraints are savable has a saved form, which is read as a sketch with the same name, identifier,
elements and constraints. Every value that is read as an element, in whatever form its points and
numbers are, gives an element with a saved form that is read as the same element. -/
theorem saved_form_lossless :
    (∀ (s : Sketch) (issued : Nat), (∀ e ∈ s.elements, e.shape.kind? ≠ none) →
      (∀ c ∈ s.constraints, c.Savable) →
      ∃ v t, s.toSaved = .ok v ∧ Sketch.ofSaved issued v = .ok t ∧ s.Restores t) ∧
    ∀ (d : Value) (e : Element Float), Element.ofSaved d = .ok e →
      ∃ v, e.toSaved = .ok v ∧ Element.ofSaved v = .ok e := by
  constructor
  · intro s issued helements hconstraints
    exact Sketch.ofSaved_toSaved helements hconstraints issued
  · intro d e hd
    obtain ⟨kind, hkind⟩ := Element.kind?_of_ofSaved hd
    exact Element.ofSaved_toSaved hkind

/-- A sketch with an element of each kind, among them an undefined radius and a spline that names
nothing, and constraints with and without a value. -/
def assorted : Sketch where
  name := .text "Ünïcode"
  id := .null
  elements :=
    [⟨.text "l", .line ⟨0.0, -0.0⟩ ⟨0.1, 1.0e300⟩⟩, ⟨.text "h", .hline ⟨1.0, 2.0⟩ (-3.0)⟩,
      ⟨.int 5, .vline ⟨1.0, 2.0⟩ (1.0 / 0.0)⟩, ⟨.text "l", .rectangle ⟨4.0, 4.0⟩ ⟨1.0, 1.0⟩⟩,
      ⟨.text "c", .circle ⟨0.0, 0.0⟩ (0.0 / 0.0)⟩, ⟨.null, .arc ⟨0.0, 0.0⟩ 2.0 0.5 1.0⟩,
      ⟨.text "s", .spline [⟨0.0, 0.0⟩, ⟨1.0, 2.0⟩, ⟨3.0, 0.0⟩]⟩, ⟨.issued 3, .spline []⟩]
  constraints :=
    [{ kind := .distance, id := .text "d", points := [.text "l_start", .text "l_end"],
        value := .float (0.0 / 0.0) },
      { kind := .fixed, id := .issued 7, circles := [.text "c_circle"], enabled := .null }]
  state := .invalid
  valid := false
  dirty := true

/-- A circle whose center is a list with a text and a truth value, and whose radius is a text. -/
def looseCircle : Value :=
  .object [("radius", .text " 1e3 "), ("type", .text "circle"), ("extra", .null),
    ("center", .list [.text "+2.", .bool true, .null]), ("id", .int 7)]

/-- The sketch comes back with its drawing and without its record; the circle is read, and its saved
form is read as the same circle. -/
theorem saved_form_lossless_assorted :
    (∃ v t, assorted.toSaved = .ok v ∧ Sketch.ofSaved 0 v = .ok t ∧ assorted.Restores t) ∧
    ∃ e v, Element.ofSaved looseCircle = .ok e ∧ e.shape = .circle ⟨2.0, 1.0⟩ (1000.0 : Float) ∧
      e.toSaved = .ok v ∧ Element.ofSaved v = .ok e := by
  constructor
  · refine saved_form_lossless.1 assorted 0 (by decide) ?_
    intro c hc
    simp only [assorted, List.mem_cons, List.not_mem_nil, or_false] at hc
    rcases hc with rfl | rfl
    · exact ⟨rfl, .inr ⟨_, rfl⟩⟩
    · exact ⟨rfl, .inl rfl⟩
  · have hrun : (match (Element.ofSaved looseCircle : Except Error (Element Float)) with
        | .ok e => decide (e.shape = .circle ⟨2.0, 1.0⟩ 1000.0)
        | .error _ => false) = true := by decide +kernel
    split at hrun
    · rename_i e hread
      obtain ⟨v, hv, hback⟩ := saved_form_lossless.2 looseCircle e hread
      exact ⟨e, v, hread, of_decide_eq_true hrun, hv, hback⟩
    · cases hrun

end Drafting
