import Drafting.Proofs.FixedPoints
import Drafting.Proofs.Numbers
import Drafting.Proofs.PartNames

/-!
From the final state of a solve to elements and back. The final state is written out as points and
circles, these are written back into the elements, and the elements can be taken apart again. A
state of finite numbers that has not moved held coordinates is written out as it is.

Lines, circles and splines store their points and lose nothing when they are written back. Lines
along an axis, rectangles and arcs compute points from other fields, and the computed points need
not be where the solve put them. Where they are, taking the elements apart gives the final state.
-/

namespace Drafting

open Scalar

variable {n k : Nat}

/-! ## Writing a state down -/

theorem le_atLeast {m a : Float} (h : Scalar.isFinite (atLeast m a) = true) :
    le m (atLeast m a) = true := by
  unfold atLeast at h ⊢
  split
  · rename_i hcond
    rw [if_pos hcond] at h
    rcases Bool.or_eq_true_iff.mp hcond with hle | hself
    · exact hle
    · -- only an undefined number is not at most itself
      rw [le_self_of_isFinite h] at hself
      cases hself
  · rename_i hcond
    rw [if_neg hcond] at h
    exact le_self_of_isFinite h

namespace System

/-- A variable of a state can be written down as it is: it is finite, or a coordinate that has its
initial value; it was raised to the least radius if it is one; and it has its initial value if it is
a coordinate of a pinned point. -/
structure PlainAt (s : System Float n k) (x : State Float n k) (i : Fin (2 * n + k)) : Prop where
  finiteOrGiven : Scalar.isFinite (x.get i) = true ∨ i.val < 2 * n ∧ s.HeldAt i x
  raised : ¬ i.val < 2 * n → ∃ a, x.get i = atLeast s.options.minRadius a
  held : s.isPinned i = true → s.HeldAt i x

/-- A state that can be written down as it is. -/
def Plain (s : System Float n k) (x : State Float n k) : Prop := ∀ i, s.PlainAt x i

variable {s : System Float n k} {x : State Float n k}

theorem isPinned_eq {p : Fin n} {i : Fin (2 * n + k)} (hi : i.val / 2 = p.val)
    (hlt : i.val < 2 * n) : s.isPinned i = s.pinned.get p := by
  have hp : (⟨i.val / 2, half_lt hlt⟩ : Fin n) = p := Fin.ext hi
  rw [isPinned, dif_pos hlt, hp]

theorem initial_x (s : System Float n k) (p : Fin n) :
    s.initial.get ⟨2 * p.val, first_lt k p⟩ = (s.vertices.get p).x :=
  congrArg Point.x (s.initial_point p)

theorem initial_y (s : System Float n k) (p : Fin n) :
    s.initial.get ⟨2 * p.val + 1, second_lt k p⟩ = (s.vertices.get p).y :=
  congrArg Point.y (s.initial_point p)

theorem PlainAt.finite_radius {i : Fin (2 * n + k)} (h : s.PlainAt x i) (hi : ¬ i.val < 2 * n) :
    Scalar.isFinite (x.get i) = true :=
  h.finiteOrGiven.resolve_right fun hgiven => hi hgiven.1

/-- The points of a state are written where it puts them, as far as it can be written down. -/
theorem PlainAt.solvedVertex_x {p : Fin n} (h : s.PlainAt x ⟨2 * p.val, first_lt k p⟩) :
    (s.solvedVertex x p).x = (x.placement.point p).x := by
  unfold solvedVertex
  dsimp only
  split
  · rename_i hpin
    have hheld := h.held (by rw [isPinned_eq (p := p) (by simp) (by simp)]; exact hpin)
    rw [HeldAt, initial_x] at hheld
    exact hheld.symm
  · rcases h.finiteOrGiven with hfinite | ⟨_, hgiven⟩
    · exact if_pos hfinite
    · rw [HeldAt, initial_x] at hgiven
      exact hgiven ▸ ite_self _

theorem PlainAt.solvedVertex_y {p : Fin n} (h : s.PlainAt x ⟨2 * p.val + 1, second_lt k p⟩) :
    (s.solvedVertex x p).y = (x.placement.point p).y := by
  unfold solvedVertex
  dsimp only
  split
  · rename_i hpin
    have hheld := h.held
      (by rw [isPinned_eq (p := p) (by simp; omega) (by simp; omega)]; exact hpin)
    rw [HeldAt, initial_y] at hheld
    exact hheld.symm
  · rcases h.finiteOrGiven with hfinite | ⟨_, hgiven⟩
    · exact if_pos hfinite
    · rw [HeldAt, initial_y] at hgiven
      exact hgiven ▸ ite_self _

/-- Points at finite coordinates are written at finite coordinates, wherever a state puts them. -/
theorem solvedVertex_isFinite (x : State Float n k) {i : Fin n}
    (hx : Scalar.isFinite (s.vertices.get i).x = true)
    (hy : Scalar.isFinite (s.vertices.get i).y = true) :
    Scalar.isFinite (s.solvedVertex x i).x = true ∧
      Scalar.isFinite (s.solvedVertex x i).y = true := by
  unfold solvedVertex
  dsimp only
  split
  · exact ⟨hx, hy⟩
  · exact ⟨finiteOr_isFinite hx, finiteOr_isFinite hy⟩

theorem Plain.point (hx : s.Plain x) (p : Fin n) :
    (s.solvedVertex x p).x = (x.placement.point p).x ∧
      (s.solvedVertex x p).y = (x.placement.point p).y :=
  ⟨(hx _).solvedVertex_x, (hx _).solvedVertex_y⟩

/-- A radius that can be written down is not below the least one. -/
theorem PlainAt.le_radius {i : Fin (2 * n + k)} (h : s.PlainAt x i) (hi : ¬ i.val < 2 * n) :
    le s.options.minRadius (x.get i) = true := by
  obtain ⟨a, ha⟩ := h.raised hi
  have hfinite := h.finite_radius hi
  rw [ha] at hfinite ⊢
  exact le_atLeast hfinite

/-- The circles of a state are written as large as it makes them, as far as it can be written
down. -/
theorem PlainAt.solvedRing_radius {j : Fin k} (h : s.PlainAt x ⟨2 * n + j.val, radius_lt n j⟩) :
    (s.solvedRing x j).radius = x.placement.radius j := by
  have hle : le s.options.minRadius (x.placement.radius j) = true := h.le_radius (by simp)
  have hwritten : finiteOr (x.placement.radius j) (s.rings.get j).radius = x.placement.radius j :=
    if_pos (h.finite_radius (by simp))
  unfold solvedRing
  dsimp only
  rw [hwritten, larger, not_lt_of_le hle]
  rfl

theorem Plain.radius (hx : s.Plain x) (j : Fin k) :
    (s.solvedRing x j).radius = x.placement.radius j :=
  (hx _).solvedRing_radius

/-- Points and circles stand at a place of a state: what belongs to the place is as the state has
it. -/
structure StandAt (vs : Vector (Vertex Float) n) (rs : Vector (Ring Float) k)
    (x : State Float n k) (i : Fin (2 * n + k)) : Prop where
  first : ∀ p : Fin n, i.val = 2 * p.val → (vs.get p).x = (x.placement.point p).x
  second : ∀ p : Fin n, i.val = 2 * p.val + 1 → (vs.get p).y = (x.placement.point p).y
  radius : ∀ j : Fin k, i.val = 2 * n + j.val → (rs.get j).radius = x.placement.radius j

/-- Points and circles that stand at a place of a state have for their initial state what the state
has there, if it can be written down. -/
theorem PlainAt.initial_get {i : Fin (2 * n + k)} (h : s.PlainAt x i) {t : System Float n k}
    (hstand : StandAt t.vertices t.rings x i)
    (hradius : t.options.minRadius = s.options.minRadius) : t.initial.get i = x.get i := by
  by_cases hi : i.val < 2 * n
  · have hp : i.val / 2 < n := by omega
    by_cases heven : i.val % 2 = 0
    · have hplace : (⟨2 * (i.val / 2), by omega⟩ : Fin (2 * n + k)) = i := Fin.ext (by simp; omega)
      have hx := hstand.first ⟨i.val / 2, hp⟩ (by simp; omega)
      rw [← t.initial_x] at hx
      rw [← hplace]
      exact hx
    · have hplace : (⟨2 * (i.val / 2) + 1, by omega⟩ : Fin (2 * n + k)) = i :=
        Fin.ext (by simp; omega)
      have hy := hstand.second ⟨i.val / 2, hp⟩ (by simp; omega)
      rw [← t.initial_y] at hy
      rw [← hplace]
      exact hy
  · have hj : i.val - 2 * n < k := by omega
    have hplace : (⟨2 * n + (i.val - 2 * n), by omega⟩ : Fin (2 * n + k)) = i :=
      Fin.ext (by simp; omega)
    have hr := hstand.radius ⟨i.val - 2 * n, hj⟩ (by simp; omega)
    have hget : x.placement.radius ⟨i.val - 2 * n, hj⟩ = x.get i := congrArg x.get hplace
    -- raising a radius again changes nothing
    rw [initial_get_of_not_lt hi, hr, hget, hradius, atLeast, h.le_radius hi]
    rfl

/-- Points and circles that stand where a plain state puts them have that state for their initial
one. -/
theorem Plain.initial_eq (hx : s.Plain x) (vs : Vector (Vertex Float) n)
    (rs : Vector (Ring Float) k)
    (hvs : ∀ i, (vs.get i).x = (x.placement.point i).x ∧ (vs.get i).y = (x.placement.point i).y)
    (hrs : ∀ j, (rs.get j).radius = x.placement.radius j) :
    ({ s with vertices := vs, rings := rs } : System Float n k).initial = x :=
  Vector.ext fun i hi => (hx ⟨i, hi⟩).initial_get
    ⟨fun p _ => (hvs p).1, fun p _ => (hvs p).2, fun j _ => hrs j⟩ rfl

end System

/-! ## Writing elements back -/

/-- Whether a shape computes its points of a role from other fields. -/
def Shape.computes {α : Type} (role : Role) : Shape α → Bool
  | hline .. | vline .. => role == .stop
  | arc .. => role == .start || role == .stop
  | rectangle .. => true
  | line .. | circle .. | spline .. | foreign => false

/-- Whether a shape computes some of its points from other fields. -/
def Shape.computesPoints {α : Type} : Shape α → Bool
  | hline .. | vline .. | rectangle .. | arc .. => true
  | line .. | circle .. | spline .. | foreign => false

theorem Shape.computes_eq_false {α : Type} {shape : Shape α} (h : shape.computesPoints = false)
    (role : Role) : shape.computes role = false := by
  cases shape with
  | line | circle | spline | foreign => rfl
  | hline | vline | rectangle | arc => cases h

theorem Shape.computes_eq_of_outline {α : Type} {a b : Shape α} (h : a.outline = b.outline)
    (role : Role) : a.computes role = b.computes role := by
  cases a <;> cases b <;> simp_all [outline, kind?, computes]

theorem Shape.computesPoints_eq_of_outline {α : Type} {a b : Shape α} (h : a.outline = b.outline) :
    a.computesPoints = b.computesPoints := by
  cases a <;> cases b <;> simp_all [outline, kind?, computesPoints]

/-- The points that a finite shape stores are finite. -/
theorem Shape.stored_isFinite {shape : Shape Float} (h : shape.isFinite = true)
    {places : List (Place Float)} (hplaces : shape.places = .ok places) {p : Place Float}
    (hp : p ∈ places) (hstored : shape.computes p.role = false) : p.point.isFinite = true := by
  cases shape with
  | line start stop =>
    obtain ⟨hstart, hstop⟩ := Bool.and_eq_true_iff.mp h
    cases hplaces
    simp only [List.mem_cons, List.not_mem_nil, or_false] at hp
    rcases hp with rfl | rfl
    · exact hstart
    · exact hstop
  | hline start length | vline start length =>
    cases hplaces
    simp only [List.mem_cons, List.not_mem_nil, or_false] at hp
    rcases hp with rfl | rfl
    · exact (Bool.and_eq_true_iff.mp h).1
    · cases hstored
  | rectangle => cases hstored
  | circle center radius =>
    cases hplaces
    obtain rfl := List.mem_singleton.mp hp
    exact (Bool.and_eq_true_iff.mp h).1
  | arc center radius a b =>
    obtain ⟨start, _, hplaces⟩ := bind_eq_ok.mp hplaces
    obtain ⟨stop, _, hplaces⟩ := bind_eq_ok.mp hplaces
    cases hplaces
    simp only [List.mem_cons, List.not_mem_nil, or_false] at hp
    rcases hp with rfl | rfl | rfl
    · simp only [isFinite, Bool.and_eq_true] at h
      exact h.1.1.1
    · cases hstored
    · cases hstored
  | spline points =>
    cases hplaces
    obtain ⟨i, hi, rfl⟩ := List.mem_mapIdx.mp hp
    exact List.all_eq_true.mp h _ (List.getElem_mem hi)
  | foreign =>
    cases hplaces
    cases hp

/-- A point is where a solved one is, as far as the coordinates of that are finite. -/
structure Point.Follows (p : Point Float) (v : Vertex Float) : Prop where
  first : Scalar.isFinite v.x = true → p.x = v.x
  second : Scalar.isFinite v.y = true → p.y = v.y

theorem Point.Follows.eq {p : Point Float} {v : Vertex Float} (h : p.Follows v)
    (hv : Scalar.isFinite v.x = true ∧ Scalar.isFinite v.y = true) : p = ⟨v.x, v.y⟩ :=
  congr (congrArg Point.mk (h.first hv.1)) (h.second hv.2)

/-- An element shows solved points: its own, taken from its fields afresh, are where those of the
same names are. -/
def Element.Shows (e : Element Float) (vs : List (Vertex Float)) : Prop :=
  ∀ places, e.shape.places = .ok places → ∀ p ∈ places, ∀ v ∈ vs,
    v.id = .text (vertexName e.id p.role p.index) → p.point = ⟨v.x, v.y⟩

/-- The points that an element computes show solved ones, where those are read: at the places of a
state that belong to them. -/
def Element.ShowsComputed (e : Element Float) (vs : List (Vertex Float)) (reads : Nat → Prop) :
    Prop :=
  ∀ places, e.shape.places = .ok places → ∀ p ∈ places, e.shape.computes p.role = true →
    ∀ i (hi : i < vs.length), vs[i].id = .text (vertexName e.id p.role p.index) →
      (reads (2 * i) → p.point.x = vs[i].x) ∧ (reads (2 * i + 1) → p.point.y = vs[i].y)

instance (e : Element Float) (vs : List (Vertex Float)) (reads : Nat → Prop) [DecidablePred reads] :
    Decidable (e.ShowsComputed vs reads) :=
  match h : e.shape.places with
  | .ok places =>
    decidable_of_iff (∀ p ∈ places, e.shape.computes p.role = true →
      ∀ i (hi : i < vs.length), vs[i].id = .text (vertexName e.id p.role p.index) →
        (reads (2 * i) → p.point.x = vs[i].x) ∧ (reads (2 * i + 1) → p.point.y = vs[i].y))
      ⟨fun hall _ hplaces => Except.ok.inj (h.symm.trans hplaces) ▸ hall,
        fun hall => hall places h⟩
  | .error _ => .isTrue fun _ hplaces => nomatch h.symm.trans hplaces

/-- An element shows solved circles: its own is as large as that of the same name, if this has a
finite size. -/
def Element.ShowsRings (e : Element Float) (rs : List (Ring Float)) : Prop :=
  ∀ r ∈ e.rings, ∀ r' ∈ rs, r'.id = r.id → Scalar.isFinite r'.radius = true →
    r.radius = r'.radius

namespace Solved

/-- Solved parts that write-back can read one way only: with different names, and with a point for
the center of every circle. -/
structure Unambiguous (s : Solved Float) : Prop where
  vertexIds : (s.vertices.map (·.id)).Nodup
  ringIds : (s.rings.map (·.id)).Nodup
  centers : ∀ r ∈ s.rings, ∀ id, r.id = .text (ringName id) →
    r.center = .text (vertexName id .center none) ∧ ∃ v ∈ s.vertices, v.id = r.center

/-- Solved parts that can be read one way only and are finite. -/
structure Legible (s : Solved Float) : Prop extends Unambiguous s where
  vertices : ∀ v ∈ s.vertices, Scalar.isFinite v.x = true ∧ Scalar.isFinite v.y = true
  radii : ∀ r ∈ s.rings, Scalar.isFinite r.radius = true

variable {s : Solved Float}

theorem Unambiguous.position_follows (hs : s.Unambiguous) {v w : Vertex Float}
    (hv : v ∈ s.vertices) (hw : w ∈ s.vertices) (hid : v.id = w.id) (fallback : Point Float) :
    (position v fallback).Follows w := by
  obtain rfl := List.inj_on_of_nodup_map hs.vertexIds hv hw hid
  exact ⟨fun hx => if_pos hx, fun hy => if_pos hy⟩

theorem Unambiguous.point_follows (hs : s.Unambiguous) {id : Value} {role : Role}
    {a p : Point Float} (h : s.point id role a = .ok p) {w : Vertex Float} (hw : w ∈ s.vertices)
    (hid : w.id = .text (vertexName id role none)) : p.Follows w := by
  obtain ⟨v, hv, hvid, rfl⟩ := point_eq_ok h
  exact hs.position_follows hv hw (hvid.trans hid.symm) a

/-- The center of a circle that write-back reads is there. -/
theorem Unambiguous.center?_isOk (hs : s.Unambiguous) {id : Value} {r : Ring Float}
    (hr : s.ring id = .ok r) :
    ∃ v, s.center? r = .ok (some v) ∧ v ∈ s.vertices ∧
      v.id = .text (vertexName id .center none) := by
  obtain ⟨hmem, hid⟩ := ring_eq_ok hr
  obtain ⟨hname, v, hv, hvid⟩ := hs.centers r hmem id hid
  obtain ⟨w, hw⟩ := exists_vertex? hv (hvid.trans hname)
  refine ⟨w, ?_, vertex?_eq_some hw⟩
  rw [center?, hname, Value.asKey_text, ← hw]
  rfl

theorem Unambiguous.center_eq (hs : s.Unambiguous) {id : Value} {r : Ring Float}
    (hr : s.ring id = .ok r) {center : Option (Vertex Float)} (hc : s.center? r = .ok center) :
    ∃ v, center = some v ∧ v ∈ s.vertices ∧ v.id = .text (vertexName id .center none) := by
  obtain ⟨v, hv, hmem, hid⟩ := hs.center?_isOk hr
  exact ⟨v, Except.ok.inj (hc.symm.trans hv), hmem, hid⟩

/-- The points that an element stores follow the solved ones when it is written back. -/
theorem Rewrites.follows (hs : s.Unambiguous) {id : Value} {old : Shape Float}
    {new : Option (Shape Float)} (h : s.Rewrites id old new) {places : List (Place Float)}
    (hplaces : (new.getD old).places = .ok places) {p : Place Float} (hp : p ∈ places)
    (hstored : old.computes p.role = false) {w : Vertex Float} (hw : w ∈ s.vertices)
    (hid : w.id = .text (vertexName id p.role p.index)) : p.point.Follows w := by
  cases h with
  | line hstart hstop =>
    cases hplaces
    simp only [List.mem_cons, List.not_mem_nil, or_false] at hp
    rcases hp with rfl | rfl
    · exact hs.point_follows hstart hw hid
    · exact hs.point_follows hstop hw hid
  | hline hstart hstop | vline hstart hstop =>
    cases hplaces
    simp only [List.mem_cons, List.not_mem_nil, or_false] at hp
    rcases hp with rfl | rfl
    · exact hs.point_follows hstart hw hid
    · cases hstored
  | circle hr hc =>
    obtain ⟨v, rfl, hv, hvid⟩ := hs.center_eq hr hc
    cases hplaces
    obtain rfl := List.mem_singleton.mp hp
    exact hs.position_follows hv hw (hvid.trans hid.symm) _
  | arc hr _ _ _ _ hc =>
    obtain ⟨v, rfl, hv, hvid⟩ := hs.center_eq hr hc
    obtain ⟨start, _, hplaces⟩ := bind_eq_ok.mp hplaces
    obtain ⟨stop, _, hplaces⟩ := bind_eq_ok.mp hplaces
    cases hplaces
    simp only [List.mem_cons, List.not_mem_nil, or_false] at hp
    rcases hp with rfl | rfl | rfl
    · exact hs.position_follows hv hw (hvid.trans hid.symm) _
    · cases hstored
    · cases hstored
  | @spline points =>
    cases hplaces
    obtain ⟨i, hi, rfl⟩ := List.mem_mapIdx.mp hp
    obtain ⟨v, hv⟩ := exists_vertex? hw hid
    obtain ⟨hmem, hvid⟩ := vertex?_eq_some hv
    simp only [List.getElem_mapIdx, hv]
    exact hs.position_follows hmem hw (hvid.trans hid.symm) _
  | foreign =>
    cases hplaces
    cases hp
  | rectangle => cases hstored

/-- An element shows the solved circle when it is written back. -/
theorem Rewrites.showsRings (hs : s.Unambiguous) {id : Value} {old : Shape Float}
    {new : Option (Shape Float)} (h : s.Rewrites id old new) :
    Element.ShowsRings ⟨id, new.getD old⟩ s.rings := by
  intro ring hring r' hr' hid hfinite
  have hown : ∀ {r : Ring Float} {old : Float}, s.ring id = .ok r →
      r'.id = .text (ringName id) → finiteOr r.radius old = r'.radius := by
    intro r old hr hid
    obtain ⟨hmem, hrid⟩ := ring_eq_ok hr
    obtain rfl := List.inj_on_of_nodup_map hs.ringIds hmem hr' (hrid.trans hid.symm)
    exact if_pos hfinite
  cases h with
  | circle hr hc =>
    obtain ⟨v, rfl, _, _⟩ := hs.center_eq hr hc
    obtain rfl := List.mem_singleton.mp hring
    exact hown hr hid
  | arc hr _ _ _ _ hc =>
    obtain ⟨v, rfl, _, _⟩ := hs.center_eq hr hc
    obtain rfl := List.mem_singleton.mp hring
    exact hown hr hid
  | @rectangle a b =>
    cases hbox : around? (s.corners id) with
    | none =>
      rw [hbox] at hring
      cases hring
    | some box =>
      rw [hbox, Option.getD_some] at hring
      have hnone : (⟨id, box⟩ : Element Float).rings = [] := by
        unfold around? at hbox
        split at hbox
        · cases hbox
          rfl
        · cases hbox
      rw [hnone] at hring
      cases hring
  | line | hline | vline | spline | foreign => cases hring

variable {es es' : List (Element Float)}

/-- Elements that were written back show the solved circles. -/
theorem Unambiguous.elements_showRings (hs : s.Unambiguous) (h : s.elements es = .ok es') :
    ∀ e ∈ es', e.ShowsRings s.rings := by
  intro e' he'
  obtain ⟨e, _, new, hnew, rfl⟩ := exists_of_forall₂_right (elements_eq_ok h) he'
  exact hnew.showsRings hs

/-- Points that are stored in elements which were written back follow the solved ones. -/
theorem Unambiguous.elements_follow (hs : s.Unambiguous) (h : s.elements es = .ok es')
    {e : Element Float} (he : e ∈ es') {places : List (Place Float)}
    (hplaces : e.shape.places = .ok places) {p : Place Float} (hp : p ∈ places)
    (hstored : e.shape.computes p.role = false) {w : Vertex Float} (hw : w ∈ s.vertices)
    (hid : w.id = .text (vertexName e.id p.role p.index)) : p.point.Follows w := by
  obtain ⟨old, _, new, hnew, rfl⟩ := exists_of_forall₂_right (elements_eq_ok h) he
  refine hnew.follows hs hplaces hp ?_ hw hid
  rw [← Shape.computes_eq_of_outline hnew.outline]
  exact hstored

/-- Elements that store their points show what was solved when they are written back. -/
theorem Legible.elements_show (hs : s.Legible) (h : s.elements es = .ok es')
    (hstored : ∀ e ∈ es', e.shape.computesPoints = false) : ∀ e ∈ es', e.Shows s.vertices := by
  intro e he places hplaces p hp w hw hid
  have hfollows := hs.elements_follow h he hplaces hp
    (Shape.computes_eq_false (hstored e he) p.role) hw hid
  exact hfollows.eq (hs.vertices w hw)

end Solved

/-- Solved parts that answer a graph: parts of its names, in any order, at finite numbers. -/
structure Solved.Answers (s : Solved Float) (g : Graph Float) : Prop where
  vertexIds : (s.vertices.map (·.id)).Perm (g.vertices.map (·.id))
  ringIds : (s.rings.map fun r => (r.id, r.center)).Perm (g.rings.map fun r => (r.id, r.center))
  vertices : ∀ v ∈ s.vertices, Scalar.isFinite v.x = true ∧ Scalar.isFinite v.y = true
  radii : ∀ r ∈ s.rings, Scalar.isFinite r.radius = true

theorem Solved.Answers.ringNames {s : Solved Float} {g : Graph Float} (hs : s.Answers g) :
    (s.rings.map (·.id)).Perm (g.rings.map (·.id)) := by
  simpa [Function.comp_def] using hs.ringIds.map Prod.fst

/-- Parts of the names of a drawing with different identifiers can be read one way only. -/
theorem Graph.Covers.unambiguous {g : Graph Float} {es : List (Element Float)} (hg : g.Covers es)
    (hids : DistinctIds es) {s : Solved Float}
    (hvertices : (s.vertices.map (·.id)).Perm (g.vertices.map (·.id)))
    (hrings : (s.rings.map fun r => (r.id, r.center)).Perm
      (g.rings.map fun r => (r.id, r.center))) : s.Unambiguous where
  vertexIds := hvertices.nodup_iff.mpr hg.nodup
  ringIds := by
    have hnames : (s.rings.map (·.id)).Perm (g.rings.map (·.id)) := by
      simpa [Function.comp_def] using hrings.map Prod.fst
    exact hnames.nodup_iff.mpr (hg.ringIds_nodup hids)
  centers := by
    intro r hr id hid
    obtain ⟨given, hgiven, heq⟩ := List.mem_map.mp (hrings.subset (List.mem_map_of_mem hr))
    obtain ⟨hname, hcenter⟩ := Prod.mk.inj heq
    obtain ⟨hnamed, v, hv, hvid⟩ := hg.ring_center hgiven (hname.trans hid)
    obtain ⟨w, hw, hwid⟩ := List.mem_map.mp (hvertices.symm.subset (List.mem_map_of_mem hv))
    exact ⟨hcenter.symm.trans hnamed, w, hw, hwid.trans (hvid.trans hcenter)⟩

/-- What answers the graph of a drawing with different identifiers can be read one way only. -/
theorem Graph.Covers.legible {g : Graph Float} {es : List (Element Float)} (hg : g.Covers es)
    (hids : DistinctIds es) {s : Solved Float} (hs : s.Answers g) : s.Legible where
  toUnambiguous := hg.unambiguous hids hs.vertexIds hs.ringIds
  vertices := hs.vertices
  radii := hs.radii

/-! ## Taking the elements apart again -/

theorem Graph.Covers.shows_vertex {g : Graph Float} {es : List (Element Float)}
    (hg : g.Covers es) {vs : List (Vertex Float)} (hshows : ∀ e ∈ es, e.Shows vs)
    {v w : Vertex Float} (hv : v ∈ g.vertices) (hw : w ∈ vs) (hid : v.id = w.id) :
    v.x = w.x ∧ v.y = w.y := by
  obtain ⟨e, he, places, hplaces, p, hp, rfl⟩ := hg.sound v hv
  have hpoint := hshows e he places hplaces p hp w hw hid.symm
  change p.point.x = w.x ∧ p.point.y = w.y
  rw [hpoint]
  exact ⟨rfl, rfl⟩

theorem Graph.Covers.shows_ring {g : Graph Float} {es : List (Element Float)}
    (hg : g.Covers es) {rs : List (Ring Float)} (hshows : ∀ e ∈ es, e.ShowsRings rs)
    {r r' : Ring Float} (hr : r ∈ g.rings) (hr' : r' ∈ rs) (hid : r.id = r'.id)
    (hfinite : Scalar.isFinite r'.radius = true) : r.radius = r'.radius := by
  rw [hg.rings] at hr
  obtain ⟨e, he, hr⟩ := List.mem_flatMap.mp hr
  exact hshows e he r hr r' hr' hid.symm hfinite

/-- In a drawing with different identifiers, the point that has the name of a place of a written
element is that of the same place before. -/
theorem Graph.Covers.vertex_eq_of_alike {g : Graph Float} {es : List (Element Float)}
    (hg : g.Covers es) (hids : DistinctIds es) {e e' : Element Float} (he : e ∈ es)
    (halike : Element.Alike e e') {places' : List (Place Float)}
    (hplaces' : e'.shape.places = .ok places') {p' : Place Float} (hp' : p' ∈ places')
    {v : Vertex Float} (hv : v ∈ g.vertices)
    (hid : v.id = .text (vertexName e'.id p'.role p'.index)) :
    ∃ places, e.shape.places = .ok places ∧ ∃ p ∈ places, p.role = p'.role ∧ v = e.vertexAt p := by
  obtain ⟨places, hplaces⟩ := hg.places e he
  have hname := Element.vertexName_mem hplaces' hp'
  rw [halike.vertexNames, Element.vertexNames, ← Shape.places_slots hplaces, List.map_map] at hname
  obtain ⟨p, hp, heq⟩ := List.mem_map.mp hname
  have hrole : p.role = p'.role := (vertexName_injective heq).2.1
  exact ⟨places, hplaces, p, hp, hrole,
    hg.vertex_eq hids he hplaces hp hv (hid.trans (congrArg Value.text heq.symm))⟩

/-- Where solved points are read, those of the drawing they were written to are at the same place, if
the elements that compute points show them there. What an element stores must be finite. -/
theorem Graph.Covers.shows_read {g : Graph Float} {es es' : List (Element Float)}
    (hg : g.Covers es') {s : Solved Float} (hs : s.Unambiguous) (h : s.elements es = .ok es')
    {reads : Nat → Prop} (hshows : ∀ e ∈ es', e.ShowsComputed s.vertices reads)
    {v w : Vertex Float} {i : Nat} (hv : v ∈ g.vertices) (hw : s.vertices[i]? = some w)
    (hid : v.id = w.id)
    (hfinite : ∀ e ∈ es', ∀ places, e.shape.places = .ok places → ∀ p ∈ places,
      e.shape.computes p.role = false → w.id = .text (vertexName e.id p.role p.index) →
        Scalar.isFinite w.x = true ∧ Scalar.isFinite w.y = true) :
    (reads (2 * i) → v.x = w.x) ∧ (reads (2 * i + 1) → v.y = w.y) := by
  obtain ⟨e, he, places, hplaces, p, hp, rfl⟩ := hg.sound v hv
  cases hcomputes : e.shape.computes p.role with
  | false =>
    have hfollows :=
      hs.elements_follow h he hplaces hp hcomputes (List.mem_of_getElem? hw) hid.symm
    obtain ⟨hx, hy⟩ := hfinite e he places hplaces p hp hcomputes hid.symm
    exact ⟨fun _ => hfollows.first hx, fun _ => hfollows.second hy⟩
  | true =>
    obtain ⟨hi, rfl⟩ := List.getElem?_eq_some_iff.mp hw
    exact hshows e he places hplaces p hp hcomputes i hi hid.symm

/-- No point of a drawing is fixed by itself. -/
theorem Graph.Covers.fixed {g : Graph Float} {es : List (Element Float)} (hg : g.Covers es) :
    ∀ v ∈ g.vertices, v.fixed = .bool false := by
  intro v hv
  obtain ⟨e, _, _, _, p, _, rfl⟩ := hg.sound v hv
  rfl

end Drafting
