import Drafting.Proofs.Dangling
import Drafting.Proofs.Integrity

/-!
What write-back requires. A line needs its two ends among the solved points, a circle needs itself
among the solved circles, and an arc needs its circle and then its two ends. Everything else may be
missing: the center of a circle, corners of a rectangle, control points of a spline.

What is missing can be listed, element after element, and within one in the order in which the
parts are looked for. Write-back fails with the first error of this list, and succeeds if the list
is empty. Solving keeps all names of a drawing, so that nothing is missing where a solution is
written back to the elements it was made for.
-/

namespace Drafting

/-! ## Required parts -/

/-- A part of an element that write-back may look for: its circle, or its point in a role. -/
inductive Need where
  | ring
  | vertex (role : Role)
  deriving DecidableEq, Repr

namespace Need

/-- The name under which an element needs a part. -/
def name (id : Value) : Need → String
  | ring => ringName id
  | vertex role => vertexName id role none

/-- What that name is expected to name. -/
def referent : Need → Referent
  | ring => .circle
  | vertex _ => .point

end Need

/-- The parts that a shape cannot be written back without, in the order in which they are looked
for. -/
def Shape.required {α : Type} : Shape α → List Need
  | line .. | hline .. | vline .. => [.vertex .start, .vertex .stop]
  | circle .. => [.ring]
  | arc .. => [.ring, .vertex .start, .vertex .stop]
  | rectangle .. | spline .. | foreign => []

namespace Solved

variable {α : Type}

/-- Whether a part of an element is there. -/
def has (s : Solved α) (id : Value) : Need → Bool
  | .ring => s.rings.any (·.id == .text (ringName id))
  | .vertex role => s.vertices.any (·.id == .text (vertexName id role none))

/-- The error about a part of an element that is not there. -/
def lack (s : Solved α) (id : Value) (need : Need) : List Error :=
  if s.has id need then [] else [.dangling need.referent (.text (need.name id)) id.mention]

/-- All that is missing of what an element requires. -/
def missing (s : Solved α) (e : Element α) : List Error := e.shape.required.flatMap (s.lack e.id)

variable {s : Solved α} {e : Element α}

theorem lack_eq_nil {id : Value} {need : Need} : s.lack id need = [] ↔ s.has id need = true := by
  unfold lack
  split <;> simp_all

theorem mem_lack {id : Value} {need : Need} {err : Error} : err ∈ s.lack id need ↔
    s.has id need = false ∧ err = .dangling need.referent (.text (need.name id)) id.mention := by
  unfold lack
  split <;> simp_all

theorem missing_ne_nil : s.missing e ≠ [] ↔ ∃ need ∈ e.shape.required, s.has e.id need = false := by
  simp only [missing, flatMap_ne_nil, ne_eq, lack_eq_nil, Bool.not_eq_true]

/-- Solved points and circles are found by their names, and those of circles name keys. -/
structure Keyed (s : Solved α) : Prop where
  names : ∀ id ∈ s.names, id.isKey = true
  centers : ∀ r ∈ s.rings, r.center.isKey = true

/-! ## One element -/

/-- Whether something is found does not depend on the end from which it is looked for. -/
theorem find?_reverse_isSome {β : Type} (p : β → Bool) (bs : List β) :
    (bs.reverse.find? p).isSome = bs.any p := by
  rw [Bool.eq_iff_iff, List.find?_isSome, List.any_eq_true]
  simp only [List.mem_reverse]

theorem ring_failsFirst (id : Value) : FailsFirst (s.ring id) (s.lack id .ring) := by
  have hfound : s.has id .ring = (s.ring? (.text (ringName id))).isSome :=
    (find?_reverse_isSome _ s.rings).symm
  rw [ring, lack, hfound]
  cases s.ring? (.text (ringName id)) with
  | some r => exact .of_isOk ⟨r, rfl⟩
  | none => exact .error _

/-- The center of a solved circle may be missing. -/
theorem center?_isOk (hs : s.Keyed) {id : Value} {r : Ring α} (hr : s.ring id = .ok r) :
    ∃ center, s.center? r = .ok center := by
  have hkey := hs.centers r (ring_eq_ok hr).1
  exact ⟨_, bind_eq_ok.mpr ⟨r.center, Value.asKey_eq_ok.mpr ⟨hkey, rfl⟩, rfl⟩⟩

variable [Scalar α]

theorem point_failsFirst (id : Value) (role : Role) (fallback : Point α) :
    FailsFirst (s.point id role fallback) (s.lack id (.vertex role)) := by
  have hfound : s.has id (.vertex role) = (s.vertex? (.text (vertexName id role none))).isSome :=
    (find?_reverse_isSome _ s.vertices).symm
  rw [point, lack, hfound]
  cases s.vertex? (.text (vertexName id role none)) with
  | some v => exact .of_isOk ⟨_, rfl⟩
  | none => exact .error _

/-- Two points in turn: the first one is missed first. -/
theorem points_failsFirst {γ : Type} (id : Value) (start stop : Point α)
    (f : Point α → Point α → γ) :
    FailsFirst (do return f (← s.point id .start start) (← s.point id .stop stop))
      ([Need.vertex .start, .vertex .stop].flatMap (s.lack id)) :=
  .bind (point_failsFirst id .start start) fun _ _ =>
    .bind (point_failsFirst id .stop stop) fun _ _ => .of_isOk ⟨_, rfl⟩

/-- A shape is written back unless a part that it requires is missing. -/
theorem shape?_failsFirst (hs : s.Keyed) (e : Element α)
    (hangle : e.shape.hasInfiniteAngle = false) : FailsFirst (s.shape? e) (s.missing e) := by
  obtain ⟨id, shape⟩ := e
  cases shape with
  | line a b => exact points_failsFirst id a b _
  | hline a length => exact points_failsFirst id a (hlineEnd a length) _
  | vline a length => exact points_failsFirst id a (vlineEnd a length) _
  | rectangle | spline | foreign => exact .of_isOk ⟨_, rfl⟩
  | circle center radius =>
    refine .bind (ring_failsFirst id) fun r hr => .of_isOk ?_
    obtain ⟨center, hcenter⟩ := center?_isOk hs hr
    exact ⟨_, bind_eq_ok.mpr ⟨center, hcenter, rfl⟩⟩
  | arc center radius a b =>
    obtain ⟨ha, hb⟩ := Bool.or_eq_false_iff.mp hangle
    refine .bind (ring_failsFirst id) fun r hr => ?_
    refine .after_isOk ((pointAtAngle_isOk center radius a).mpr ha) fun start => ?_
    refine .bind (point_failsFirst id .start start) fun p _ => ?_
    refine .after_isOk ((pointAtAngle_isOk center radius b).mpr hb) fun stop => ?_
    refine .bind (point_failsFirst id .stop stop) fun q _ => .of_isOk ?_
    obtain ⟨center, hcenter⟩ := center?_isOk hs hr
    exact ⟨_, bind_eq_ok.mpr ⟨center, hcenter, rfl⟩⟩

theorem element_failsFirst (hs : s.Keyed) (e : Element α)
    (hangle : e.shape.hasInfiniteAngle = false) : FailsFirst (s.element e) (s.missing e) := by
  rw [← List.append_nil (s.missing e)]
  exact .bind (shape?_failsFirst hs e hangle) fun _ _ => .of_isOk ⟨_, rfl⟩

/-- Elements are written back unless something that one of them requires is missing. -/
theorem elements_failsFirst (hs : s.Keyed) {es : List (Element α)}
    (hangles : ∀ e ∈ es, e.shape.hasInfiniteAngle = false) :
    FailsFirst (s.elements es) (es.flatMap s.missing) := by
  have hkeys : ∃ ids, s.names.mapM Value.asKey = .ok ids :=
    mapM_isOk fun id hid => ⟨id, Value.asKey_eq_ok.mpr ⟨hs.names id hid, rfl⟩⟩
  exact .after_isOk hkeys fun _ => .mapM fun e he => element_failsFirst hs e (hangles e he)

end Solved

/-! ## What a solve returns -/

/-- A solver that uses a registered backend: the one that the settings choose, or one of its own. -/
def Solver.IsRegistered (solver : Solver) : Prop :=
  ∀ b ∈ solver.injected, b ∈ Backend.registered

theorem Backend.exists_method {b : Backend} (h : b ∈ registered) : ∃ m : Method, b = m.backend := by
  simp only [registered, List.mem_cons, List.not_mem_nil, or_false] at h
  rcases h with rfl | rfl
  · exact ⟨.gaussNewton floatSolver, rfl⟩
  · exact ⟨.bounded "scipy_trf" (Fit.optimiser "trf"), rfl⟩

theorem Selection.exists_method {solver : Solver} (hsolver : solver.IsRegistered) (flags : Flags)
    (options : Options Float) :
    ∃ m : Method, (choose solver.injected flags options).backend = m.backend := by
  cases hinjected : solver.injected with
  | none => exact ⟨_, choose_backend flags options⟩
  | some b => exact Backend.exists_method (hsolver b hinjected)

/-- A solve keeps the names of points and circles, and the names of centers. -/
theorem Solver.solve_names {solver : Solver} (hsolver : solver.IsRegistered) {flags : Flags}
    {g : Graph Float} {cs : List Constraint} {options : Option (Options Float)} {r : Solution}
    (h : solver.solve flags g cs options = .ok r) :
    r.vertices.map (·.id) = g.vertices.map (·.id) ∧
      r.rings.map (fun c => (c.id, c.center)) = g.rings.map fun c => (c.id, c.center) := by
  unfold solve at h
  dsimp only at h
  split at h
  · cases h
    exact ⟨rfl, rfl⟩
  · obtain ⟨found, hfound, rfl⟩ := map_eq_ok.mp h
    obtain ⟨m, hm⟩ := Selection.exists_method hsolver flags _
    rw [hm] at hfound
    exact Method.solve_names hfound

namespace Graph.Covers

variable {g : Graph Float} {es : List (Element Float)} {s : Solved Float}

/-- Solved parts under the names of a drawing are found by their names. -/
theorem keyed (hg : g.Covers es) (hvertices : s.vertices.map (·.id) = g.vertices.map (·.id))
    (hrings : s.rings.map (fun c => (c.id, c.center)) = g.rings.map fun c => (c.id, c.center)) :
    s.Keyed := by
  have hring : ∀ r ∈ s.rings, r.id.isKey = true ∧ r.center.isKey = true := by
    intro r hr
    obtain ⟨given, hgiven, heq⟩ := List.mem_map.mp (hrings ▸ List.mem_map_of_mem hr)
    obtain ⟨hid, hcenter⟩ := Prod.mk.inj heq
    rw [hg.rings] at hgiven
    obtain ⟨e, _, hmem⟩ := List.mem_flatMap.mp hgiven
    obtain ⟨hname, hcname, _⟩ := Element.rings_closed hmem
    rw [← hid, ← hcenter, hname, hcname]
    exact ⟨rfl, rfl⟩
  refine ⟨fun id hid => ?_, fun r hr => (hring r hr).2⟩
  rcases List.mem_append.mp hid with hid | hid
  · rw [hvertices] at hid
    obtain ⟨v, hv, rfl⟩ := List.mem_map.mp hid
    obtain ⟨e, _, _, _, p, _, rfl⟩ := hg.sound v hv
    rfl
  · obtain ⟨r, hr, rfl⟩ := List.mem_map.mp hid
    exact (hring r hr).1

end Graph.Covers

namespace Solved

variable {s : Solved Float} {e : Element Float}

theorem Serves.has_vertex (hs : s.Serves e) {role : Role}
    (h : vertexName e.id role none ∈ e.vertexNames) : s.has e.id (.vertex role) = true := by
  obtain ⟨v, hv, hid⟩ := hs.vertices _ h
  exact List.any_eq_true.mpr ⟨v, hv, Value.beq_text_iff.mpr hid⟩

theorem Serves.has_ring (hs : s.Serves e) {r : Ring Float} (h : r ∈ e.rings) :
    s.has e.id .ring = true := by
  obtain ⟨r', hr', hid⟩ := hs.rings r h
  exact List.any_eq_true.mpr
    ⟨r', hr', Value.beq_text_iff.mpr (hid.trans (Element.rings_closed h).1)⟩

/-- Solved parts that serve an element have all that it requires. -/
theorem Serves.missing_eq_nil (hs : s.Serves e) : s.missing e = [] := by
  refine List.flatMap_eq_nil_iff.mpr fun need hneed => lack_eq_nil.mpr ?_
  obtain ⟨id, shape⟩ := e
  cases shape with
  | line | hline | vline =>
    simp only [Shape.required, List.mem_cons, List.not_mem_nil, or_false] at hneed
    rcases hneed with rfl | rfl <;>
      exact hs.has_vertex (by simp [Element.vertexNames, Shape.slots])
  | circle =>
    obtain rfl := List.mem_singleton.mp hneed
    exact hs.has_ring (List.mem_singleton.mpr rfl)
  | arc =>
    simp only [Shape.required, List.mem_cons, List.not_mem_nil, or_false] at hneed
    rcases hneed with rfl | rfl | rfl
    · exact hs.has_ring (List.mem_singleton.mpr rfl)
    · exact hs.has_vertex (by simp [Element.vertexNames, Shape.slots])
    · exact hs.has_vertex (by simp [Element.vertexNames, Shape.slots])
  | rectangle | spline | foreign => cases hneed

end Solved

/-- A solve with a registered backend returns all that the elements require that it was made for. -/
theorem Solver.solve_writes_back {solver : Solver} (hsolver : solver.IsRegistered) {flags : Flags}
    {es : List (Element Float)} {g : Graph Float} (hgraph : Graph.ofElements es = .ok g)
    {cs : List Constraint} {options : Option (Options Float)} {r : Solution}
    (h : solver.solve flags g cs options = .ok r) :
    ∃ es', Solved.elements ⟨r.vertices, r.rings⟩ es = .ok es' := by
  have hg := Graph.ofElements_covers hgraph
  obtain ⟨hvertices, hrings⟩ := solve_names hsolver h
  have hserves : ∀ e ∈ es, Solved.Serves ⟨r.vertices, r.rings⟩ e := by
    refine hg.serves ?_ ?_
    · rw [hvertices]
      exact List.Subset.refl _
    · rw [ringIds_of_pairs hrings]
      exact List.Subset.refl _
  have hangles := Graph.ofElements_isOk_iff.mp ⟨g, hgraph⟩
  refine (Solved.elements_failsFirst (hg.keyed hvertices hrings) hangles).isOk_iff.mpr ?_
  exact List.flatMap_eq_nil_iff.mpr fun e he => (hserves e he).missing_eq_nil

/-! ## The whole -/

/-- **Write-back fails exactly on missing parts.** It fails if an element lacks a part that its
shape requires, and then with the first error of what is missing: the error names the part, and the
identifier of the element. Otherwise it succeeds, whatever else is missing. On what a solve with a
registered backend returns for the graph of the same elements it always succeeds. -/
theorem write_back_fails_with_first_missing (s : Solved Float) (hs : s.Keyed)
    (es : List (Element Float)) (hangles : ∀ e ∈ es, e.shape.hasInfiniteAngle = false) :
    ((∃ what name owner, s.elements es = .error (.dangling what name owner)) ↔
      ∃ e ∈ es, ∃ need ∈ e.shape.required, s.has e.id need = false) ∧
    (∀ err, s.elements es = .error err ↔ (es.flatMap s.missing).head? = some err) ∧
    ((∃ es', s.elements es = .ok es') ↔ es.flatMap s.missing = []) ∧
    (∀ e, ∀ err ∈ s.missing e, ∃ need ∈ e.shape.required, s.has e.id need = false ∧
      err = .dangling need.referent (.text (need.name e.id)) e.id.mention) ∧
    ∀ (solver : Solver) (flags : Flags) (g : Graph Float) (cs : List Constraint)
      (options : Option (Options Float)) (r : Solution), solver.IsRegistered →
      Graph.ofElements es = .ok g → solver.solve flags g cs options = .ok r →
      ∃ es', Solved.elements ⟨r.vertices, r.rings⟩ es = .ok es' := by
  have hfirst := Solved.elements_failsFirst hs hangles
  have htells : ∀ e, ∀ err ∈ s.missing e, ∃ need ∈ e.shape.required, s.has e.id need = false ∧
      err = .dangling need.referent (.text (need.name e.id)) e.id.mention := by
    intro e err herr
    obtain ⟨need, hneed, herr⟩ := List.mem_flatMap.mp herr
    exact ⟨need, hneed, Solved.mem_lack.mp herr⟩
  refine ⟨?_, hfirst, hfirst.isOk_iff, htells, fun solver flags g cs options r hsolver hgraph h =>
    Solver.solve_writes_back hsolver hgraph h⟩
  simp only [← Solved.missing_ne_nil, ← flatMap_ne_nil]
  constructor
  · rintro ⟨what, name, owner, h⟩ hnil
    have := (hfirst _).mp h
    rw [hnil] at this
    cases this
  · intro hne
    obtain ⟨err, rest, hlist⟩ := List.exists_cons_of_ne_nil hne
    have hmem : err ∈ es.flatMap s.missing := by
      rw [hlist]
      exact List.mem_cons_self
    obtain ⟨e, _, herr⟩ := List.mem_flatMap.mp hmem
    obtain ⟨need, _, _, rfl⟩ := htells e err herr
    exact ⟨_, _, _, (hfirst _).mpr (by rw [hlist]; rfl)⟩

/-- A rectangle without corners and a circle without its center, an arc without its end, and a line
of which nothing is there. -/
def scattered : List (Element Float) :=
  [⟨.text "r", .rectangle ⟨0.0, 0.0⟩ ⟨1.0, 1.0⟩⟩, ⟨.text "c", .circle ⟨0.0, 0.0⟩ 1.0⟩,
    ⟨.text "a", .arc ⟨0.0, 0.0⟩ 1.0 0.0 2.0⟩, ⟨.text "l", .line ⟨0.0, 0.0⟩ ⟨1.0, 1.0⟩⟩]

/-- What is there of these elements. -/
def remains : Solved Float where
  vertices := [{ id := .text "a_start", x := 1.0, y := 0.0 }]
  rings := [⟨.text "c_circle", .text "c_center", 2.0⟩, ⟨.text "a_circle", .text "a_center", 2.0⟩]

theorem remains_keyed : remains.Keyed := ⟨by decide, by decide⟩

/-- The error is about the end of the arc. Without the arc and the line nothing is missing. What a
solve with the least squares backend returns is written back. -/
theorem write_back_fails_with_first_missing_scattered :
    remains.elements scattered = .error (.dangling .point (.text "a_end") "a") ∧
    (∃ es', remains.elements (scattered.take 2) = .ok es') ∧
    ∃ g r es', Graph.ofElements scattered = .ok g ∧
      Solver.solve { injected := some (.leastSquares "trf") } .standard g
        [.fixing (.text "f") (.text "l_end") .null] none = .ok r ∧
      Solved.elements ⟨r.vertices, r.rings⟩ scattered = .ok es' := by
  have hangles : ∀ e ∈ scattered, e.shape.hasInfiniteAngle = false := by decide
  obtain ⟨_, hfirst, _, _, hsolved⟩ :=
    write_back_fails_with_first_missing remains remains_keyed scattered hangles
  obtain ⟨_, _, hsucceeds, _⟩ := write_back_fails_with_first_missing remains remains_keyed
    (scattered.take 2) fun e he => hangles e (List.mem_of_mem_take he)
  refine ⟨(hfirst _).mpr (by rfl), hsucceeds.mpr (by rfl), ?_⟩
  have hok : (Graph.ofElements scattered >>= fun g =>
      Solver.solve { injected := some (.leastSquares "trf") } .standard g
        [.fixing (.text "f") (.text "l_end") .null] none).isOk = true := by decide +kernel
  obtain ⟨r, hr⟩ := exists_eq_ok_of_isOk hok
  obtain ⟨g, hg, hr⟩ := bind_eq_ok.mp hr
  have hregistered : Solver.IsRegistered { injected := some (.leastSquares "trf") } := by
    rintro b ⟨⟩
    exact List.mem_cons_of_mem _ List.mem_cons_self
  obtain ⟨es', hes'⟩ := hsolved _ _ g _ none r hregistered hg hr
  exact ⟨g, r, es', hg, hr, hes'⟩

end Drafting
