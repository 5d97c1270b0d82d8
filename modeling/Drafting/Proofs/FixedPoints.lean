import Drafting.Proofs.ErrorBoundary
import Drafting.Proofs.Extraction
import Drafting.Proofs.FinalState

/-!
Fixed points are exact. A point is held by a problem if its own flag says so, if an enabled
constraint fixes its name and it is the first with that name, or if it is the center of a circle
that such a constraint fixes. Whatever a method does, a held point is returned where it was given,
to the last bit, and marked as fixed; every other point keeps its flag.

In a drawing whose elements have different identifiers a name belongs to one place of one element.
So a fixed name leaves the coordinates that the element stores for that place as they are through a
whole solve, write-back included.
-/

namespace Drafting

open Scalar

/-! ## Problems -/

namespace Problem

/-- A problem holds the point at a place. -/
def Holds (p : Problem) (i : Nat) : Prop :=
  (∃ v, p.vertices[i]? = some v ∧ v.fixed.truthy = true) ∨
    ∃ c ∈ p.constraints, c.isEnabled = true ∧ c.kind = .fixed ∧
      ((∃ q ∈ c.points, p.vertices.findIdx? (·.id == q) = some i) ∨
        ∃ q ∈ c.circles, ∃ r, p.rings.find? (·.id == q) = some r ∧
          p.vertices.findIdx? (·.id == r.center) = some i)

@[simp] theorem toList_vertexVector (p : Problem) : p.vertexVector.toList = p.vertices := rfl

@[simp] theorem toList_ringVector (p : Problem) : p.ringVector.toList = p.rings := rfl

theorem vertexVector_get (p : Problem) (i : Fin p.vertices.length) :
    p.vertexVector.get i = p.vertices.get i := rfl

/-- What is held is there. -/
theorem Holds.lt {p : Problem} {i : Nat} (h : p.Holds i) : i < p.vertices.length := by
  obtain ⟨v, hv, _⟩ | ⟨c, _, _, _, ⟨q, _, hi⟩ | ⟨q, _, r, _, hi⟩⟩ := h
  · exact (List.getElem?_eq_some_iff.mp hv).1
  · exact (List.findIdx?_eq_some_iff_getElem.mp hi).1
  · exact (List.findIdx?_eq_some_iff_getElem.mp hi).1

/-- What a constraint of a problem fixes, by names and places. -/
theorem fixes_iff {p : Problem} {c : Constraint}
    (hc : c.Resolves p.vertexVector p.edges p.ringVector) (i : Fin p.vertices.length) :
    c.Fixes p.vertexVector p.ringVector i ↔ c.kind = .fixed ∧
      ((∃ q ∈ c.points, p.vertices.findIdx? (·.id == q) = some i.val) ∨
        ∃ q ∈ c.circles, ∃ r, p.rings.find? (·.id == q) = some r ∧
          p.vertices.findIdx? (·.id == r.center) = some i.val) := by
  unfold Constraint.Fixes
  refine and_congr_right fun _ => or_congr ?_ ?_
  · refine exists_congr fun q => and_congr_right fun hq => ?_
    obtain ⟨j, hj⟩ := hc.points q hq
    have hkey := (resolvePoint_eq_ok.mp hj).1
    rw [resolvePoint_eq_ok, toList_vertexVector]
    exact and_iff_right hkey
  · refine exists_congr fun q => and_congr_right fun hq => ?_
    obtain ⟨d, hd⟩ := hc.circles q hq
    obtain ⟨r, hr, hcenter⟩ := resolveCircle_center hd
    have hplace := (resolvePoint_eq_ok.mp hcenter).2
    rw [toList_vertexVector] at hplace
    rw [toList_ringVector] at hr
    rw [hd, hr]
    constructor
    · rintro ⟨d', hd', hi⟩
      cases hd'
      exact ⟨r, rfl, hi ▸ hplace⟩
    · rintro ⟨r', hr', hi⟩
      cases hr'
      rw [hplace] at hi
      exact ⟨d, rfl, Fin.ext (Option.some.inj hi)⟩

/-- The pinned points of a compiled problem are those it holds. -/
theorem pinned_iff {p : Problem} {s : System Float p.vertices.length p.rings.length}
    (h : p.system = .ok s) (i : Fin p.vertices.length) :
    s.pinned.get i = true ↔ p.Holds i.val := by
  obtain ⟨_, _, _, hpinned⟩ := System.compile_eq_ok h
  rw [hpinned i, Holds]
  refine or_congr ?_ ?_
  · rw [vertexVector_get]
    simp
  · refine exists_congr fun c => and_congr_right fun hc => and_congr_right fun henabled => ?_
    exact fixes_iff (System.compile_resolves h hc henabled) i

end Problem

/-- Every point of a result is the given one, moved by the final state. -/
theorem Method.solve_vertex {m : Method} {p : Problem} {r : Solution}
    (h : m.backend.solve p = .ok r) :
    ∃ s, p.system = .ok s ∧ r.vertices.length = p.vertices.length ∧
      ∀ i : Fin p.vertices.length,
        r.vertices[i.val]? = some (s.solvedVertex (m.final s) i) := by
  obtain ⟨s, hs, hr⟩ := solve_eq_ok h
  exact ⟨s, hs, by simp [hr.vertices], fun i => by rw [hr.vertices, s.solution_vertex]⟩

/-- What a method keeps of a point: its name, its coordinates if it is held, and its flag if it is
not. -/
structure Problem.Keeps (p : Problem) (i : Nat) (v w : Vertex Float) : Prop where
  id : w.id = v.id
  held : p.Holds i → w.x = v.x ∧ w.y = v.y ∧ w.fixed = .bool true
  flag : ¬ p.Holds i → w.fixed = v.fixed

theorem Method.solve_keeps {m : Method} {p : Problem} {r : Solution}
    (h : m.backend.solve p = .ok r) {i : Nat} {v w : Vertex Float}
    (hv : p.vertices[i]? = some v) (hw : r.vertices[i]? = some w) : p.Keeps i v w := by
  obtain ⟨s, hs, _, hvertices⟩ := solve_vertex h
  obtain ⟨hi, rfl⟩ := List.getElem?_eq_some_iff.mp hv
  rw [hvertices ⟨i, hi⟩] at hw
  cases hw
  obtain ⟨hsvs, _⟩ := System.compile_eq_ok hs
  have hget : s.vertices.get ⟨i, hi⟩ = p.vertices[i] := by rw [hsvs]; rfl
  have hpinned := Problem.pinned_iff hs ⟨i, hi⟩
  unfold System.solvedVertex
  dsimp only
  rw [hget]
  split
  · rename_i hpin
    exact ⟨rfl, fun _ => ⟨rfl, rfl, rfl⟩, fun hnot => absurd (hpinned.mp hpin) hnot⟩
  · rename_i hpin
    exact ⟨rfl, fun hholds => absurd (hpinned.mpr hholds) hpin, fun _ => rfl⟩

theorem Method.solve_mem {m : Method} {p : Problem} {r : Solution}
    (h : m.backend.solve p = .ok r) {w : Vertex Float} (hw : w ∈ r.vertices) :
    ∃ i v, p.vertices[i]? = some v ∧ p.Keeps i v w := by
  obtain ⟨s, _, hlength, _⟩ := solve_vertex h
  obtain ⟨i, hw⟩ := List.mem_iff_getElem?.mp hw
  have hi : i < p.vertices.length := hlength ▸ (List.getElem?_eq_some_iff.mp hw).1
  exact ⟨i, p.vertices[i], by simp, solve_keeps h (by simp) hw⟩

/-- The circles of a result have the names and centers of the given ones. -/
theorem Method.solve_ring {m : Method} {p : Problem} {r : Solution}
    (h : m.backend.solve p = .ok r) {ring : Ring Float} (hring : ring ∈ r.rings) :
    ∃ given ∈ p.rings, ring.id = given.id ∧ ring.center = given.center := by
  obtain ⟨given, hgiven, heq⟩ := exists_of_map_eq (solve_names h).2 hring
  exact ⟨given, hgiven, (Prod.mk.inj heq).1.symm, (Prod.mk.inj heq).2.symm⟩

/-! ## Write-back -/

section Stored

variable {α : Type}

/-- The pair of coordinates that a shape stores for one of its places. The other places are computed
from these and from lengths, angles or opposite corners. -/
inductive Shape.Stores : Shape α → Role → Option Nat → Point α → Prop where
  | lineStart (p q : Point α) : Stores (.line p q) .start none p
  | lineStop (p q : Point α) : Stores (.line p q) .stop none q
  | hlineStart (p : Point α) (length : α) : Stores (.hline p length) .start none p
  | vlineStart (p : Point α) (length : α) : Stores (.vline p length) .start none p
  | circleCenter (c : Point α) (radius : α) : Stores (.circle c radius) .center none c
  | arcCenter (c : Point α) (radius a b : α) : Stores (.arc c radius a b) .center none c
  | control {points : List (Point α)} {i : Nat} {p : Point α} (h : points[i]? = some p) :
      Stores (.spline points) .control (some i) p

/-- A shape that stores a center has a circle. -/
theorem Shape.Stores.ring {e : Element α} {index : Option Nat} {p : Point α}
    (h : e.shape.Stores .center index p) : index = none ∧ ∃ r, r ∈ e.rings := by
  obtain ⟨id, shape⟩ := e
  cases h with
  | circleCenter | arcCenter => exact ⟨rfl, _, List.mem_singleton.mpr rfl⟩

variable [Scalar α]

theorem Shape.Stores.mem_places {shape : Shape α} {role : Role} {index : Option Nat} {p : Point α}
    (h : shape.Stores role index p) {places : List (Place α)}
    (hplaces : shape.places = .ok places) : (⟨role, index, p⟩ : Place α) ∈ places := by
  cases h with
  | lineStart | lineStop | hlineStart | vlineStart | circleCenter =>
    cases hplaces
    simp
  | arcCenter =>
    obtain ⟨start, _, hplaces⟩ := bind_eq_ok.mp hplaces
    obtain ⟨stop, _, hplaces⟩ := bind_eq_ok.mp hplaces
    cases hplaces
    simp
  | @control points i p h =>
    cases hplaces
    obtain ⟨hi, rfl⟩ := List.getElem?_eq_some_iff.mp h
    exact List.mem_mapIdx.mpr ⟨i, hi, rfl⟩

theorem Solved.position_of_eq {v : Vertex α} {p : Point α} (hx : v.x = p.x) (hy : v.y = p.y) :
    Solved.position v p = p := by
  have hsame : ∀ a : α, finiteOr a a = a := fun a => by simp [finiteOr]
  simp only [position, hx, hy, hsame]

/-- A stored pair of coordinates survives write-back if the solved points of its name have it. -/
theorem Solved.Rewrites.stores {s : Solved α} {id : Value} {old : Shape α} {new : Option (Shape α)}
    (h : s.Rewrites id old new) {role : Role} {index : Option Nat} {p : Point α}
    (hold : old.Stores role index p)
    (hvertices : ∀ v ∈ s.vertices, v.id = .text (vertexName id role index) →
      v.x = p.x ∧ v.y = p.y)
    (hrings : ∀ r ∈ s.rings, r.id = .text (ringName id) →
      r.center = .text (vertexName id .center none)) :
    (new.getD old).Stores role index p := by
  have hposition : ∀ v ∈ s.vertices, v.id = .text (vertexName id role index) →
      position v p = p := fun v hv hid =>
    position_of_eq (hvertices v hv hid).1 (hvertices v hv hid).2
  have hpoint : ∀ {q}, index = none → s.point id role p = .ok q → q = p := by
    rintro q rfl hq
    obtain ⟨v, hv, hid, rfl⟩ := point_eq_ok hq
    exact hposition v hv hid
  have hcenter : ∀ {r v}, role = .center → index = none → s.ring id = .ok r →
      s.center? r = .ok (some v) → position v p = p := by
    rintro r v rfl rfl hr hv
    obtain ⟨hmem, hid⟩ := ring_eq_ok hr
    rw [center?, hrings r hmem hid, Value.asKey_text] at hv
    obtain ⟨hv, hvid⟩ := vertex?_eq_some (Except.ok.inj hv)
    exact hposition v hv hvid
  cases hold with
  | lineStart =>
    cases h with
    | line hp hq => exact hpoint rfl hp ▸ .lineStart _ _
  | lineStop =>
    cases h with
    | line hp hq => exact hpoint rfl hq ▸ .lineStop _ _
  | hlineStart =>
    cases h with
    | hline hp hq => exact hpoint rfl hp ▸ .hlineStart _ _
  | vlineStart =>
    cases h with
    | vline hp hq => exact hpoint rfl hp ▸ .vlineStart _ _
  | circleCenter =>
    cases h with
    | @circle _ _ r center hr hc =>
      cases center with
      | none => exact .circleCenter _ _
      | some v =>
        rw [Option.map_some, Option.getD_some, hcenter rfl rfl hr hc]
        exact .circleCenter _ _
  | arcCenter =>
    cases h with
    | @arc _ _ _ _ _ _ _ _ r center hr _ _ _ _ hc =>
      cases center with
      | none => exact .arcCenter _ _ _ _
      | some v =>
        rw [Option.map_some, Option.getD_some, hcenter rfl rfl hr hc]
        exact .arcCenter _ _ _ _
  | @control points i p hi =>
    cases h with
    | spline =>
      refine .control ?_
      rw [List.getElem?_mapIdx, hi, Option.map_some]
      split
      · rename_i v hv
        obtain ⟨hv, hid⟩ := vertex?_eq_some hv
        rw [hposition v hv hid]
      · rfl

end Stored

/-! ## Sketches -/

/-- With different names the first item with a name is the only one. -/
theorem findIdx?_of_nodup {α : Type} {vs : List (Vertex α)} (hnodup : (vs.map (·.id)).Nodup)
    {i : Nat} {v : Vertex α} (hv : vs[i]? = some v) {name : String} (hid : v.id = .text name) :
    vs.findIdx? (·.id == .text name) = some i := by
  obtain ⟨hi, rfl⟩ := List.getElem?_eq_some_iff.mp hv
  rw [List.findIdx?_eq_some_iff_getElem]
  refine ⟨hi, by simp [hid], fun j hj => ?_⟩
  intro hbeq
  have hjid := Value.beq_text_iff.mp hbeq
  have hne := List.pairwise_iff_getElem.mp hnodup j i (by simp; omega) (by simpa using hi) hj
  exact hne (by simp [hjid, hid])

namespace Sketch

/-- An enabled constraint of a sketch fixes a place of an element: it names the place, or the place
is a center and it names the circle. -/
def Fixes (s : Sketch) (e : Element Float) (role : Role) (index : Option Nat) : Prop :=
  ∃ c ∈ s.constraints, c.isEnabled = true ∧ c.kind = .fixed ∧
    (.text (vertexName e.id role index) ∈ c.points ∨
      role = .center ∧ .text (ringName e.id) ∈ c.circles)

/-- The problem of a solve holds the places that the sketch fixes. -/
theorem Fixes.holds {s : Sketch} {e : Element Float} {role : Role} {index : Option Nat}
    (hfixes : s.Fixes e role index) (hids : DistinctIds s.elements) (he : e ∈ s.elements)
    {p : Point Float} (hstores : e.shape.Stores role index p) {g : Graph Float}
    (hg : g.Covers s.elements) {keep : List Constraint} {options : Option (Options Float)}
    {i : Nat} {v : Vertex Float} (hv : g.vertices[i]? = some v)
    (hid : v.id = .text (vertexName e.id role index)) :
    (Solver.problem g (s.constraints ++ keep) options).Holds i := by
  obtain ⟨c, hc, henabled, hkind, hnamed⟩ := hfixes
  have hactive : c ∈ Solver.active (s.constraints ++ keep) :=
    List.mem_filter.mpr ⟨List.mem_append_left _ hc, henabled⟩
  refine .inr ⟨c, hactive, henabled, hkind, ?_⟩
  rcases hnamed with hpoint | ⟨rfl, hcircle⟩
  · exact .inl ⟨_, hpoint, findIdx?_of_nodup hg.nodup hv hid⟩
  · obtain ⟨rfl, r, hr⟩ := hstores.ring
    have hmem : r ∈ g.rings := by
      rw [hg.rings]
      exact List.mem_flatMap.mpr ⟨e, he, hr⟩
    have hsome : (g.rings.find? (·.id == .text (ringName e.id))).isSome = true :=
      List.find?_isSome.mpr ⟨r, hmem, by simp [(Element.rings_closed hr).1]⟩
    obtain ⟨first, hfirst⟩ := Option.isSome_iff_exists.mp hsome
    have hbeq := List.find?_some hfirst
    have hfirstid := Value.beq_text_iff.mp hbeq
    -- the first circle with the name belongs to the element, as no other has its identifier
    have hown := hg.ring_mem hids he (List.mem_of_find?_eq_some hfirst) hfirstid
    refine .inr ⟨_, hcircle, first, hfirst, ?_⟩
    rw [(Element.rings_closed hown).2.1]
    exact findIdx?_of_nodup hg.nodup hv hid

/-- A fixed place of an element keeps its stored coordinates in a solve that goes through. -/
theorem cycle_stores {s : Sketch} (hids : DistinctIds s.elements) {flags : Flags}
    {options : Option (Options Float)} {r : Solution} {es : List (Element Float)}
    (h : s.cycle flags options = .ok (r, es)) :
    List.Forall₂ (fun e e' => ∀ role index p, e.shape.Stores role index p →
      s.Fixes e role index → e'.shape.Stores role index p) s.elements es := by
  obtain ⟨g, keep, hgraph, _, hsolve, ⟨_, rfl⟩ | ⟨hstatus, hes⟩⟩ := cycle_eq_ok h
  · exact List.forall₂_same.mpr fun _ _ _ _ _ hstores _ => hstores
  · have hg := Graph.ofElements_covers hgraph
    obtain ⟨found, hfound, hvertices, hrings, _⟩ := Solver.solve_eq_ok hsolve hstatus
    have hwritten := Solved.elements_eq_ok hes
    refine ((List.forall₂_and_left _ _).mpr ⟨fun _ he => he, hwritten⟩).imp ?_
    rintro e _ ⟨he, new, hnew, rfl⟩ role index p hstores hfixes
    obtain ⟨places, hplaces⟩ := hg.places e he
    have hplace := hstores.mem_places hplaces
    refine hnew.stores hstores ?_ ?_
    · -- a solved point of that name is the given one, which is held
      intro w hw hid
      rw [hvertices] at hw
      obtain ⟨i, v, hv, hkeeps⟩ := Method.solve_mem hfound hw
      have hvid := hkeeps.id.symm.trans hid
      have hvp := hg.vertex_eq hids he hplaces hplace (List.mem_of_getElem? hv) hvid
      obtain ⟨hx, hy, _⟩ := hkeeps.held (hfixes.holds hids he hstores hg hv hvid)
      rw [hx, hy, hvp]
      exact ⟨rfl, rfl⟩
    · intro ring hring hid
      rw [hrings] at hring
      obtain ⟨given, hgiven, hgid, hgcenter⟩ := Method.solve_ring hfound hring
      have hown := hg.ring_mem hids he hgiven (hgid ▸ hid)
      rw [hgcenter, (Element.rings_closed hown).2.1]

end Sketch

/-- **Fixed points are exact.** Whatever method solves a problem, with any linear solver or optimiser,
every point that the problem holds is returned with the coordinates it was given and marked as fixed,
and every other point keeps its flag. Whatever a solve does to a sketch whose elements have different
identifiers, the coordinates that an element stores for a place that an enabled constraint fixes stay
as they are. -/
theorem fixed_points_exact :
    (∀ (m : Method) (p : Problem) (r : Solution), m.backend.solve p = .ok r →
      r.vertices.length = p.vertices.length ∧
        ∀ i v w, p.vertices[i]? = some v → r.vertices[i]? = some w → p.Keeps i v w) ∧
    ∀ (s : Sketch) (flags : Flags) (options : Option (Options Float)), DistinctIds s.elements →
      List.Forall₂ (fun e e' => ∀ role index p, e.shape.Stores role index p →
        s.Fixes e role index → e'.shape.Stores role index p)
        s.elements (s.solve flags options).1.elements := by
  constructor
  · intro m p r h
    obtain ⟨_, _, hlength, _⟩ := Method.solve_vertex h
    exact ⟨hlength, fun i v w hv hw => Method.solve_keeps h hv hw⟩
  · intro s flags options hids
    cases h : s.cycle flags options with
    | error cause =>
      rw [(Sketch.solve_abandoned h).2.elements]
      exact List.forall₂_same.mpr fun _ _ _ _ _ hstores _ => hstores
    | ok result =>
      rw [Sketch.solve_eq_of_ok h]
      exact Sketch.cycle_stores hids h

/-- A line whose start is fixed and whose length is to become five. -/
def heldLine : Sketch where
  id := .text "s"
  elements := [⟨.text "l", .line ⟨1.0, 2.0⟩ ⟨4.0, 2.0⟩⟩]
  constraints :=
    [.fixing (.text "f") (.text "l_start") .null, .length (.text "d") (.text "l_line") (.float 5.0)]

/-- The problem of that line. -/
def heldProblem : Problem where
  vertices :=
    [{ id := .text "l_start", x := 1.0, y := 2.0 }, { id := .text "l_end", x := 4.0, y := 2.0 }]
  edges := [⟨.text "l_line", .text "l_start", .text "l_end"⟩]
  rings := []
  constraints := heldLine.constraints
  options := .standard

theorem fixed_points_exact_heldLine :
    (∃ r w, Backend.gaussNewton.solve heldProblem = .ok r ∧ r.vertices[0]? = some w ∧
      w.x = 1.0 ∧ w.y = 2.0 ∧ w.fixed = .bool true) ∧
    ∃ e, (heldLine.solve .standard none).1.elements = [e] ∧
      e.shape.Stores .start none ⟨1.0, 2.0⟩ := by
  constructor
  · have hok : (Backend.gaussNewton.solve heldProblem).isOk = true := by decide +kernel
    cases hr : Backend.gaussNewton.solve heldProblem with
    | error e =>
      rw [hr] at hok
      cases hok
    | ok r =>
      obtain ⟨hlength, hkeeps⟩ := fixed_points_exact.1 (.gaussNewton floatSolver) _ r hr
      have hlt : 0 < r.vertices.length := by rw [hlength]; decide
      have hheld : heldProblem.Holds 0 :=
        .inr ⟨_, List.mem_cons_self, rfl, rfl, .inl ⟨.text "l_start", List.mem_cons_self, rfl⟩⟩
      obtain ⟨hx, hy, hfixed⟩ :=
        (hkeeps 0 _ r.vertices[0] rfl (List.getElem?_eq_getElem hlt)).held hheld
      exact ⟨r, r.vertices[0], rfl, List.getElem?_eq_getElem hlt, hx, hy, hfixed⟩
  · have hids : DistinctIds heldLine.elements := ⟨by simp [heldLine], by simp [heldLine]⟩
    have h := fixed_points_exact.2 heldLine .standard none hids
    obtain ⟨e, rest, he, hrest, helements⟩ := List.forall₂_cons_left_iff.mp h
    obtain rfl := List.forall₂_nil_left_iff.mp hrest
    exact ⟨e, helements, he .start none _ (.lineStart _ _)
      ⟨_, List.mem_cons_self, rfl, rfl, .inl List.mem_cons_self⟩⟩

end Drafting
