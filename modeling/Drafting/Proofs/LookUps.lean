import Mathlib.Data.Finset.Max
import Mathlib.Data.Fintype.Basic
import Drafting.Proofs.PartNames
import Drafting.Proofs.Requirements

/-!
Where a name is looked up. Points and circles are looked up by name in three ways: in a graph, when
a constraint is compiled, and among solved parts when an element is written back. The first two take
the first part with a name, the third takes the last one.

No two points of a drawing have one name, so that all three find a point at one place. Circles are
registered even if their name is taken. Where two elements with one identifier have a circle each,
the radius that a system is solved for is that of the first, and the one that is written back to
both elements is that of the last.
-/

namespace Drafting

variable {α β : Type} {n k : Nat}

/-! ## The first and the last of several -/

/-- The first place of a list whose item has a property. -/
structure FirstAt (xs : Vector β n) (p : β → Bool) (i : Fin n) : Prop where
  holds : p (xs.get i) = true
  before : ∀ j < i, p (xs.get j) = false

/-- The last place of a list whose item has a property. -/
structure LastAt (xs : Vector β n) (p : β → Bool) (i : Fin n) : Prop where
  holds : p (xs.get i) = true
  after : ∀ j, i < j → p (xs.get j) = false

section Places

variable {xs : Vector β n} {p : β → Bool} {i j : Fin n}

theorem exists_firstAt (h : p (xs.get i) = true) : ∃ first, FirstAt xs p first := by
  obtain ⟨first, hfirst, hleast⟩ := Finset.exists_min_image
    (Finset.univ.filter fun j => p (xs.get j) = true) id ⟨i, by simpa using h⟩
  simp only [Finset.mem_filter, Finset.mem_univ, true_and, id_eq] at hfirst hleast
  refine ⟨first, hfirst, fun j hj => ?_⟩
  by_contra hholds
  exact absurd (hleast j (by simpa using hholds)) (not_le.mpr hj)

theorem exists_lastAt (h : p (xs.get i) = true) : ∃ last, LastAt xs p last := by
  obtain ⟨last, hlast, hgreatest⟩ := Finset.exists_max_image
    (Finset.univ.filter fun j => p (xs.get j) = true) id ⟨i, by simpa using h⟩
  simp only [Finset.mem_filter, Finset.mem_univ, true_and, id_eq] at hlast hgreatest
  refine ⟨last, hlast, fun j hj => ?_⟩
  by_contra hholds
  exact absurd (hgreatest j (by simpa using hholds)) (not_le.mpr hj)

/-- The only place with a property is the first one and the last one. -/
theorem firstAt_lastAt_of_only (h : p (xs.get i) = true)
    (honly : ∀ j, p (xs.get j) = true → j = i) : FirstAt xs p i ∧ LastAt xs p i := by
  have hother : ∀ j, j ≠ i → p (xs.get j) = false := fun j hj => by
    by_contra hholds
    exact hj (honly j (by simpa using hholds))
  exact ⟨⟨h, fun j hj => hother j hj.ne⟩, h, fun j hj => hother j hj.ne'⟩

/-- First and last place are one exactly if there is no other. -/
theorem FirstAt.eq_last_iff {first last : Fin n} (hfirst : FirstAt xs p first)
    (hlast : LastAt xs p last) (h : p (xs.get i) = true) :
    first = last ↔ ∀ j, p (xs.get j) = true → j = i := by
  have hbetween : ∀ j, p (xs.get j) = true → first ≤ j ∧ j ≤ last := fun j hj => by
    refine ⟨not_lt.mp fun hlt => ?_, not_lt.mp fun hlt => ?_⟩
    · rw [hfirst.before j hlt] at hj
      cases hj
    · rw [hlast.after j hlt] at hj
      cases hj
  constructor
  · rintro rfl j hj
    rw [le_antisymm (hbetween j hj).2 (hbetween j hj).1,
      le_antisymm (hbetween i h).2 (hbetween i h).1]
  · intro honly
    rw [honly first hfirst.holds, honly last hlast.holds]

theorem FirstAt.findFinIdx?_eq (h : FirstAt xs p i) : xs.findFinIdx? p = some i := by
  rw [findFinIdx?_eq_some_iff, List.findIdx?_eq_some_iff_getElem]
  refine ⟨by simp, h.holds, fun j hj => ?_⟩
  have hbefore := h.before ⟨j, by omega⟩ hj
  simpa [Vector.get] using hbefore

theorem FirstAt.find?_eq (h : FirstAt xs p i) : xs.toList.find? p = some (xs.get i) := by
  rw [find?_toList, h.findFinIdx?_eq, Option.map_some]

theorem LastAt.find?_reverse_eq (h : LastAt xs p i) :
    xs.toList.reverse.find? p = some (xs.get i) := by
  have hi : i.val < xs.toList.length := by simp
  have hsplit : xs.toList = xs.toList.take i.val ++ xs.get i :: xs.toList.drop (i.val + 1) := by
    have hget : xs.get i = xs.toList[i.val] := by simp [Vector.get]
    rw [hget, List.getElem_cons_drop hi, List.take_append_drop]
  rw [List.find?_eq_some_iff_append]
  refine ⟨h.holds, (xs.toList.drop (i.val + 1)).reverse, (xs.toList.take i.val).reverse, ?_, ?_⟩
  · conv_lhs => rw [hsplit]
    simp
  · intro x hx
    obtain ⟨m, hm, rfl⟩ := List.mem_drop_iff_getElem.mp (List.mem_reverse.mp hx)
    have hm' : i.val + 1 + m < n := by simpa [Nat.add_comm] using hm
    have hafter := h.after ⟨i.val + 1 + m, hm'⟩ (by simp only [Fin.lt_def]; omega)
    simpa [Vector.get] using hafter

end Places

/-- Items with different names are told apart by them. -/
theorem eq_of_get_eq {γ : Type} {xs : Vector β n} {f : β → γ} (h : (xs.toList.map f).Nodup)
    {i j : Fin n} (hij : f (xs.get i) = f (xs.get j)) : i = j := by
  have hi : i.val < (xs.toList.map f).length := by simp
  have hj : j.val < (xs.toList.map f).length := by simp
  have hsame : (xs.toList.map f)[i.val] = (xs.toList.map f)[j.val] := by
    simpa [Vector.get] using hij
  exact Fin.ext (h.getElem_inj_iff.mp hsame)

/-! ## The three look-ups -/

section LookUps

variable (vs : Vector (Vertex α) n) (edges : List Edge) (rs : Vector (Ring α) k)

/-- All three look-ups find the point with a name at one place. -/
structure PointFoundAt (owner name : String) (i : Fin n) : Prop where
  graph : Graph.vertex ⟨vs.toList, edges, rs.toList⟩ (.text name) = .ok (vs.get i)
  system : resolvePoint vs owner (.text name) = .ok i
  solved : Solved.vertex? ⟨vs.toList, rs.toList⟩ (.text name) = some (vs.get i)

/-- A graph and a system find the circle with a name at the first place that has it, solved parts
at the last one. In a system the circle is found if its center is, and its radius is that at the
first place. -/
structure CircleFoundAt (owner name : String) (first last : Fin k) : Prop where
  isFirst : FirstAt rs (·.id == .text name) first
  isLast : LastAt rs (·.id == .text name) last
  graph : Graph.ring ⟨vs.toList, edges, rs.toList⟩ (.text name) = .ok (rs.get first)
  system : resolveCircle vs rs owner (.text name) =
    (resolvePoint vs owner (rs.get first).center).map fun center => ⟨center, first⟩
  solved : Solved.ring? ⟨vs.toList, rs.toList⟩ (.text name) = some (rs.get last)

variable {vs edges rs} {owner name : String}

theorem FirstAt.pointFoundAt {i : Fin n} (hfirst : FirstAt vs (·.id == .text name) i)
    (hlast : LastAt vs (·.id == .text name) i) : PointFoundAt vs edges rs owner name i where
  graph := by
    rw [Graph.vertex, Graph.vertex?, hfirst.find?_eq]
  system := by
    rw [resolvePoint_eq_ok, ← findFinIdx?_eq_some_iff]
    exact ⟨rfl, hfirst.findFinIdx?_eq⟩
  solved := hlast.find?_reverse_eq

theorem FirstAt.circleFoundAt {first last : Fin k} (hfirst : FirstAt rs (·.id == .text name) first)
    (hlast : LastAt rs (·.id == .text name) last) :
    CircleFoundAt vs edges rs owner name first last where
  isFirst := hfirst
  isLast := hlast
  graph := by
    rw [Graph.ring, Graph.ring?, hfirst.find?_eq]
  system := by
    rw [resolveCircle, Value.IsName.asKey_bind (.text name), hfirst.findFinIdx?_eq]
    dsimp only
    cases resolvePoint vs owner (rs.get first).center <;> rfl
  solved := hlast.find?_reverse_eq

/-- Where no two points have one name, a point is found at its place. -/
theorem pointFoundAt_of_nodup (hvs : (vs.toList.map (·.id)).Nodup) {i : Fin n}
    (h : (vs.get i).id = .text name) : PointFoundAt vs edges rs owner name i := by
  obtain ⟨hfirst, hlast⟩ := firstAt_lastAt_of_only (p := fun v : Vertex α => v.id == .text name)
    (Value.beq_text_iff.mpr h) fun j hj =>
      eq_of_get_eq hvs ((Value.beq_text_iff.mp hj).trans h.symm)
  exact hfirst.pointFoundAt hlast

/-- A circle is found at the first and at the last place with its name. -/
theorem exists_circleFoundAt {i : Fin k} (h : (rs.get i).id = .text name) :
    ∃ first last, CircleFoundAt vs edges rs owner name first last ∧
      (first = last ↔ ∀ j, (rs.get j).id = .text name → j = i) := by
  have hholds : ((rs.get i).id == .text name) = true := Value.beq_text_iff.mpr h
  obtain ⟨first, hfirst⟩ := exists_firstAt (p := fun r : Ring α => r.id == .text name) hholds
  obtain ⟨last, hlast⟩ := exists_lastAt (p := fun r : Ring α => r.id == .text name) hholds
  refine ⟨first, last, hfirst.circleFoundAt hlast, ?_⟩
  rw [hfirst.eq_last_iff hlast hholds]
  simp only [Value.beq_text_iff]

end LookUps

/-! ## What is written back -/

/-- The radius of a shape that has one. -/
def Shape.radius? : Shape α → Option α
  | circle _ radius => some radius
  | arc _ radius _ _ => some radius
  | _ => none

namespace Solved

theorem ring?_of_ring {s : Solved α} {id : Value} {r : Ring α} (h : s.ring id = .ok r) :
    s.ring? (.text (ringName id)) = some r := by
  unfold ring at h
  dsimp only at h
  split at h
  · rename_i found hfound
    cases h
    exact hfound
  · cases h

variable [Scalar α]

/-- A radius that is written back is that of the circle that is found among the solved ones. It
stays as it was if the center of that circle is not there. -/
theorem Rewrites.radius {s : Solved α} {id : Value} {old : Shape α} {new : Option (Shape α)}
    (h : s.Rewrites id old new) {radius : α} (hradius : old.radius? = some radius) :
    ∃ r center, s.ring? (.text (ringName id)) = some r ∧ s.center? r = .ok center ∧
      (new.getD old).radius? =
        some (if center.isSome then Scalar.finiteOr r.radius radius else radius) := by
  cases h with
  | line | hline | vline | rectangle | spline | foreign => cases hradius
  | @circle c _ r center hr hc =>
    cases hradius
    refine ⟨r, center, ring?_of_ring hr, hc, ?_⟩
    cases center <;> rfl
  | @arc c start stop p q _ a b r center hr hstart hp hstop hq hc =>
    cases hradius
    refine ⟨r, center, ring?_of_ring hr, hc, ?_⟩
    cases center <;> rfl

/-- The radius of an element that was written back is that of the last circle with its name. -/
theorem element_radius {vs : Vector (Vertex α) n} {edges : List Edge} {rs : Vector (Ring α) k}
    {owner : String} {e e' : Element α} {radius : α} (hradius : e.shape.radius? = some radius)
    (h : Solved.element ⟨vs.toList, rs.toList⟩ e = .ok e') :
    ∃ first last center, CircleFoundAt vs edges rs owner (ringName e.id) first last ∧
      Solved.center? ⟨vs.toList, rs.toList⟩ (rs.get last) = .ok center ∧
      e'.shape.radius? = some
        (if center.isSome then Scalar.finiteOr (rs.get last).radius radius else radius) := by
  obtain ⟨new, hnew, rfl⟩ := element_eq_ok h
  obtain ⟨r, center, hr, hcenter, hwritten⟩ := hnew.radius hradius
  obtain ⟨hmem, hid⟩ := ring?_eq_some hr
  obtain ⟨i, hi, rfl⟩ := List.getElem_of_mem hmem
  have hname : (rs.get ⟨i, by simpa using hi⟩).id = .text (ringName e.id) := by
    simpa [Vector.get] using hid
  obtain ⟨first, last, hfound, _⟩ :
      ∃ first last, CircleFoundAt vs edges rs owner (ringName e.id) first last ∧ _ :=
    exists_circleFoundAt hname
  -- what was found above is what the look-up gives at the last place
  have hlast := Option.some.inj (hr.symm.trans hfound.solved)
  rw [hlast] at hcenter hwritten
  exact ⟨first, last, center, hfound, hcenter, hwritten⟩

end Solved

/-! ## The whole -/

/-- **A name is found at one place, unless two circles have it.** In lists of points and circles
with the names of the graph of a drawing, such as the result of a solve, a point is found at the
same place whichever way it is looked up. A circle is found in a graph and in a system at the first
place with its name and among solved parts at the last; these are one place exactly if no other
circle has the name, as is so wherever the identifiers of elements are different. The radius that is
written back to an element is that at the last place, while a system is solved for that at the
first. -/
theorem found_at_one_place_unless_circles_share_a_name [Scalar α] {es : List (Element α)}
    {g : Graph α} (hg : Graph.ofElements es = .ok g) (vs : Vector (Vertex α) n)
    (rs : Vector (Ring α) k) (hvs : vs.toList.map (·.id) = g.vertices.map (·.id))
    (hrs : rs.toList.map (·.id) = g.rings.map (·.id)) (edges : List Edge) (owner : String) :
    (∀ name i, (vs.get i).id = .text name → PointFoundAt vs edges rs owner name i) ∧
    (∀ name i, (rs.get i).id = .text name →
      ∃ first last, CircleFoundAt vs edges rs owner name first last ∧
        (first = last ↔ ∀ j, (rs.get j).id = .text name → j = i)) ∧
    (∀ e e' radius, e.shape.radius? = some radius →
      Solved.element ⟨vs.toList, rs.toList⟩ e = .ok e' →
      ∃ first last center, CircleFoundAt vs edges rs owner (ringName e.id) first last ∧
        Solved.center? ⟨vs.toList, rs.toList⟩ (rs.get last) = .ok center ∧
        e'.shape.radius? = some
          (if center.isSome then Scalar.finiteOr (rs.get last).radius radius else radius)) ∧
    (DistinctIds (es.filter (·.isDrawn)) → ∀ i j, (rs.get i).id = (rs.get j).id → i = j) := by
  refine ⟨fun name i hi => ?_, fun name i hi => exists_circleFoundAt hi,
    fun e e' radius hradius he' => Solved.element_radius hradius he', fun hes i j hij => ?_⟩
  · have hnodup := (Graph.ofElements_covers hg).nodup
    rw [← hvs] at hnodup
    exact pointFoundAt_of_nodup hnodup hi
  · rw [← Graph.ofElements_filter_isDrawn] at hg
    have hnodup := (Graph.ofElements_covers hg).ringIds_nodup hes
    rw [← hrs] at hnodup
    exact eq_of_get_eq hnodup hij

/-- Two circles with one identifier and one center. -/
def twins : List (Element Float) :=
  [⟨.text "C", .circle ⟨0.0, 0.0⟩ 5.0⟩, ⟨.text "C", .circle ⟨0.0, 0.0⟩ 7.0⟩]

/-- The center that the two share. -/
def twinCenter : Vector (Vertex Float) 1 :=
  #v[{ id := .text "C_center", x := 0.0, y := 0.0, element := .text "C", role := .center }]

/-- The circles of the two, the first of which was solved for a radius of 3. -/
def twinRings : Vector (Ring Float) 2 :=
  #v[⟨.text "C_circle", .text "C_center", 3.0⟩, ⟨.text "C_circle", .text "C_center", 7.0⟩]

theorem twins_graph : Graph.ofElements twins = .ok
    { vertices := twinCenter.toList
      rings := [⟨.text "C_circle", .text "C_center", 5.0⟩,
        ⟨.text "C_circle", .text "C_center", 7.0⟩] } := by
  simp [twins, twinCenter, Graph.ofElements, Graph.merge, Graph.register, Element.graph,
    Element.vertex, Element.ring, vertexName, ringName, Role.word, Value.plain, bind, Except.bind,
    pure, Except.pure]

/-- The shared center is found at its one place. The circle is found first and last at different
places, and both elements get the radius of the last. -/
theorem found_at_one_place_unless_circles_share_a_name_twins :
    PointFoundAt twinCenter [] twinRings "RADIUS r" "C_center" 0 ∧
    (∃ first last, first ≠ last ∧
      CircleFoundAt twinCenter [] twinRings "RADIUS r" "C_circle" first last) ∧
    ∀ e ∈ twins, ∀ e', Solved.element ⟨twinCenter.toList, twinRings.toList⟩ e = .ok e' →
      e'.shape.radius? = some 7.0 := by
  obtain ⟨hpoint, hcircle, hradius, _⟩ := found_at_one_place_unless_circles_share_a_name
    twins_graph twinCenter twinRings rfl (by simp [twinRings]) [] "RADIUS r"
  refine ⟨hpoint "C_center" 0 rfl, ?_, ?_⟩
  · obtain ⟨first, last, hfound, hone⟩ := hcircle "C_circle" 0 rfl
    exact ⟨first, last, fun heq => absurd (hone.mp heq 1 rfl) (by decide), hfound⟩
  · intro e he e' he'
    have hid : e.id = .text "C" ∧ ∃ radius, e.shape.radius? = some radius := by
      simp only [twins, List.mem_cons, List.not_mem_nil, or_false] at he
      rcases he with rfl | rfl <;> exact ⟨rfl, _, rfl⟩
    obtain ⟨hid, radius, hold⟩ := hid
    obtain ⟨first, last, center, hfound, hcenter, hwritten⟩ := hradius e e' radius hold he'
    have hlast : twinRings.get 1 = twinRings.get last := by
      have hsolved := hfound.solved
      rw [hid] at hsolved
      exact Option.some.inj hsolved
    rw [← hlast] at hcenter hwritten
    cases hcenter
    exact hwritten

/-- A sketch of the two, with a constraint on the radius of the circle that both call theirs. -/
def twinSketch : Sketch where
  name := .text "s"
  id := .text "s"
  elements := twins
  constraints :=
    [{ kind := .radius, id := .text "r", circles := [.text "C_circle"], value := .float 3.0 }]

set_option maxRecDepth 100000 in
/-- Not every name is found at one place. Where two circles have it, solving for a radius of 3
succeeds and makes the first circle that large, and the elements are left as large as the last. -/
theorem solved_radius_lost_on_twins :
    (∃ g, Graph.ofElements twins = .ok g ∧ twinCenter.toList.map (·.id) = g.vertices.map (·.id) ∧
      twinRings.toList.map (·.id) = g.rings.map (·.id) ∧
      ¬ ∃ i, CircleFoundAt twinCenter g.edges twinRings "RADIUS r" "C_circle" i i) ∧
    ∃ t r, twinSketch.solve .standard none = (t, some r) ∧ r.success = true ∧
      r.rings.map (fun c => Scalar.lt (Scalar.abs (c.radius - 3.0)) 0.0001) = [true, false] ∧
      ∀ e ∈ t.elements, e.shape.radius? = some 7.0 := by
  constructor
  · refine ⟨_, twins_graph, rfl, by simp [twinRings], ?_⟩
    rintro ⟨i, hi⟩
    have hgraph := congrArg (fun r => r.toOption.map (·.radius)) hi.graph
    have hsolved := congrArg (fun r => r.map (·.radius)) hi.solved
    have hradius := hgraph.trans hsolved.symm
    revert hradius
    decide
  · have hrun : (match twinSketch.solve .standard none with
        | (t, some r) => decide (r.success = true ∧
            r.rings.map (fun c => Scalar.lt (Scalar.abs (c.radius - 3.0)) 0.0001) = [true, false] ∧
            ∀ e ∈ t.elements, e.shape.radius? = some 7.0)
        | (_, none) => false) = true := by
      decide +kernel
    split at hrun
    · rename_i t r hsolve
      exact ⟨t, r, hsolve, of_decide_eq_true hrun⟩
    · cases hrun

end Drafting
