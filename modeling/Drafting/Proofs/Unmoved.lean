import Mathlib.Algebra.Field.Rat
import Drafting.Proofs.ExactArithmetic
import Drafting.Proofs.Extraction
import Drafting.Proofs.Numbers

/-!
Writing back what did not move. If the graph of a drawing is written back as it is, every element
finds its own points and circle under their names, with the numbers that were computed from its
fields, and rebuilds its fields from these. What is stored is found again, undefined or not. What is
computed is computed back: the length of a line along an axis from its ends, the angles of an arc
from the directions of its ends, and a rectangle as the box around its corners, which starts at the
smaller coordinates from then on.

In exact arithmetic a length that is computed back is the old one. In floating-point arithmetic it
need not be.
-/

namespace Drafting

open Scalar

variable {α : Type} [Scalar α]

/-! ## Shapes -/

/-- The direction of an end of an arc, as it is computed back from the position of the end. -/
def turned (center : Point α) (radius angle : α) : α :=
  finiteOr (atan2 (center.y + radius * sin angle - center.y)
    (center.x + radius * cos angle - center.x)) angle

/-- What write-back makes of a shape whose points did not move. -/
def Shape.restored : Shape α → Shape α
  | hline start length => .hline start (finiteOr (start.x + length - start.x) length)
  | vline start length => .vline start (finiteOr (start.y + length - start.y) length)
  | rectangle a b =>
    .rectangle ⟨smaller a.x b.x, smaller a.y b.y⟩ ⟨larger a.x b.x, larger a.y b.y⟩
  | arc center radius a b => .arc center radius (turned center radius a) (turned center radius b)
  | shape => shape

/-- An element that was written back without having moved. Of a rectangle with infinite or undefined
coordinates only identifier and kind are told. -/
structure Element.Restored (e e' : Element α) : Prop where
  id : e'.id = e.id
  kind : e'.shape.kind? = e.shape.kind?
  shape : (e.shape.kind? = some .rectangle → e.shape.isFinite = true) →
    e'.shape = e.shape.restored

theorem finiteOr_self (a : α) : finiteOr a a = a := ite_self a

theorem Solved.position_vertexAt (e : Element α) (p : Place α) :
    position (e.vertexAt p) p.point = p.point :=
  congrArg₂ Point.mk (finiteOr_self p.point.x) (finiteOr_self p.point.y)

theorem pointAtAngle_eq_ok {center p : Point α} {radius angle : α}
    (h : pointAtAngle center radius angle = .ok p) :
    p = ⟨center.x + radius * cos angle, center.y + radius * sin angle⟩ := by
  unfold pointAtAngle at h
  split at h
  · cases h
  · exact (Except.ok.inj h).symm

/-- What is found at every index of a list, and is what stands there, is the list. -/
theorem filterMap_range_eq {β : Type} {l : List β} {f : Nat → Option β}
    (hf : ∀ (i : Nat) (hi : i < l.length), f i = some l[i]) :
    (List.range l.length).filterMap f = l := by
  induction l generalizing f with
  | nil => rfl
  | cons a l ih =>
    have h0 : f 0 = some a := hf 0 (Nat.zero_lt_succ _)
    rw [List.length_cons, List.range_succ_eq_map, List.filterMap_cons_some h0,
      List.filterMap_map]
    exact congrArg (a :: ·) (ih fun i hi => hf (i + 1) (Nat.succ_lt_succ hi))

/-! ## The box around the corners -/

section Box

theorem smaller_self (a : α) : smaller a a = a := ite_self a

theorem larger_self (a : α) : larger a a = a := ite_self a

theorem smaller_second (a b : α) : smaller (smaller a b) b = smaller a b := by
  unfold smaller
  by_cases h : lt b a = true
  · rw [if_pos h, ite_self]
  · rw [if_neg h, if_neg h]

theorem larger_second (a b : α) : larger (larger a b) b = larger a b := by
  unfold larger
  by_cases h : lt a b = true
  · rw [if_pos h, ite_self]
  · rw [if_neg h, if_neg h]

variable (hlt : ∀ a b : α, lt a b = true → lt b a = false)
include hlt

theorem smaller_first (a b : α) : smaller (smaller a b) a = smaller a b := by
  unfold smaller
  by_cases h : lt b a = true
  · rw [if_pos h, hlt b a h, if_neg nofun]
  · rw [if_neg h, ite_self]

theorem larger_first (a b : α) : larger (larger a b) a = larger a b := by
  unfold larger
  by_cases h : lt a b = true
  · rw [if_pos h, hlt a b h, if_neg nofun]
  · rw [if_neg h, ite_self]

/-- The box around the corners of a rectangle is the rectangle, with its start at the smaller
coordinates. -/
theorem around?_rectangleCorners (a b : Point α) :
    Solved.around? (rectangleCorners a b) = some (Shape.restored (.rectangle a b)) := by
  simp only [rectangleCorners, Solved.around?, Solved.least, Solved.greatest, List.map_cons,
    List.map_nil, List.foldl_cons, List.foldl_nil, smaller_self, larger_self, smaller_second,
    larger_second, smaller_first hlt, larger_first hlt, Shape.restored]

end Box

/-! ## What an element finds -/

/-- The points and circles of a graph, as they are written back if they did not move. -/
def Graph.unmoved (g : Graph α) : Solved α := ⟨g.vertices, g.rings⟩

namespace Graph.Covers

variable {g : Graph α} {es : List (Element α)} (hg : g.Covers es) (hids : DistinctIds es)
  {e : Element α} (he : e ∈ es)
include hg hids he

/-- An element finds its own vertex at each of its places. -/
theorem vertex?_unmoved {places : List (Place α)} (hplaces : e.shape.places = .ok places)
    {p : Place α} (hp : p ∈ places) :
    g.unmoved.vertex? (.text (vertexName e.id p.role p.index)) = some (e.vertexAt p) := by
  obtain ⟨v, hv, hid⟩ := hg.complete e he _ (Element.vertexName_mem hplaces hp)
  obtain ⟨w, hw⟩ := Solved.exists_vertex? (s := g.unmoved) hv hid
  obtain ⟨hmem, hwid⟩ := Solved.vertex?_eq_some hw
  rw [hw, hg.vertex_eq hids he hplaces hp hmem hwid]

/-- An element finds its own point, whatever the fallback would be. -/
theorem point_unmoved {places : List (Place α)} (hplaces : e.shape.places = .ok places)
    (role : Role) (a : Point α) (hp : (⟨role, none, a⟩ : Place α) ∈ places) :
    g.unmoved.point e.id role a = .ok a := by
  rw [Solved.point, hg.vertex?_unmoved hids he hplaces hp]
  exact congrArg Except.ok (Solved.position_vertexAt e ⟨role, none, a⟩)

/-- An element finds its own circle. -/
theorem ring_unmoved (radius : α) (hring : e.rings = [e.ring radius]) :
    g.unmoved.ring e.id = .ok (e.ring radius) := by
  have hmem : e.ring radius ∈ g.rings := by
    rw [hg.rings]
    exact List.mem_flatMap.mpr ⟨e, he, by rw [hring]; exact List.mem_singleton.mpr rfl⟩
  obtain ⟨r, hr⟩ := Solved.exists_ring? (s := g.unmoved) hmem rfl
  obtain ⟨hrmem, hrid⟩ := Solved.ring?_eq_some hr
  have hown := hg.ring_mem hids he hrmem hrid
  rw [hring] at hown
  rw [Solved.ring, hr, List.mem_singleton.mp hown]

/-- The circle of an element leads to its own center. -/
theorem center?_unmoved {places : List (Place α)} (hplaces : e.shape.places = .ok places)
    (center : Point α) (hp : (⟨.center, none, center⟩ : Place α) ∈ places) (radius : α) :
    g.unmoved.center? (e.ring radius) = .ok (some (e.vertexAt ⟨.center, none, center⟩)) := by
  have hvertex := hg.vertex?_unmoved hids he hplaces hp
  rw [Solved.center?, Element.ring, Value.asKey_text]
  exact congrArg Except.ok hvertex

omit he in
/-- A rectangle with finite coordinates finds its four corners. -/
theorem corners_unmoved {id : Value} {a b : Point α} (he : ⟨id, .rectangle a b⟩ ∈ es)
    (ha : a.isFinite = true) (hb : b.isFinite = true) :
    g.unmoved.corners id = rectangleCorners a b := by
  obtain ⟨hax, hay⟩ := Bool.and_eq_true_iff.mp ha
  obtain ⟨hbx, hby⟩ := Bool.and_eq_true_iff.mp hb
  have hfinite : ∀ p ∈ rectangleCorners a b, (isFinite p.x && isFinite p.y) = true := by
    simp [rectangleCorners, hax, hay, hbx, hby]
  refine filterMap_range_eq (l := rectangleCorners a b) fun i hi => ?_
  rw [hg.vertex?_unmoved hids he (p := ⟨.corner, some i, (rectangleCorners a b)[i]⟩) rfl
    (List.mem_mapIdx.mpr ⟨i, hi, rfl⟩)]
  exact if_pos (hfinite _ (List.getElem_mem hi))

/-- **One element**: it is found as it was, but for what is computed. -/
theorem shape?_unmoved (hlt : ∀ a b : α, lt a b = true → lt b a = false)
    (hfinite : e.shape.kind? = some .rectangle → e.shape.isFinite = true) :
    ∃ new, g.unmoved.shape? e = .ok new ∧ new.getD e.shape = e.shape.restored := by
  obtain ⟨places, hplaces⟩ := hg.places e he
  have hpoint := hg.point_unmoved hids he hplaces
  obtain ⟨id, shape⟩ := e
  cases shape with
  | line start stop =>
    cases hplaces
    have hstart := hpoint .start start (by simp)
    have hstop := hpoint .stop stop (by simp)
    exact ⟨_, bind_eq_ok.mpr ⟨_, hstart, bind_eq_ok.mpr ⟨_, hstop, rfl⟩⟩, rfl⟩
  | hline start length =>
    cases hplaces
    have hstart := hpoint .start start (by simp)
    have hstop := hpoint .stop (hlineEnd start length) (by simp)
    exact ⟨_, bind_eq_ok.mpr ⟨_, hstart, bind_eq_ok.mpr ⟨_, hstop, rfl⟩⟩, rfl⟩
  | vline start length =>
    cases hplaces
    have hstart := hpoint .start start (by simp)
    have hstop := hpoint .stop (vlineEnd start length) (by simp)
    exact ⟨_, bind_eq_ok.mpr ⟨_, hstart, bind_eq_ok.mpr ⟨_, hstop, rfl⟩⟩, rfl⟩
  | rectangle a b =>
    obtain ⟨ha, hb⟩ := Bool.and_eq_true_iff.mp (hfinite rfl)
    have hbox := around?_rectangleCorners hlt a b
    rw [← hg.corners_unmoved hids he ha hb] at hbox
    exact ⟨_, rfl, by rw [hbox]; rfl⟩
  | circle center radius =>
    have hring := hg.ring_unmoved hids he radius rfl
    have hplace : (⟨.center, none, center⟩ : Place α) ∈ places := by
      cases hplaces
      simp
    have hcenter := hg.center?_unmoved hids he hplaces center hplace radius
    refine ⟨_, bind_eq_ok.mpr ⟨_, hring, bind_eq_ok.mpr ⟨_, hcenter, rfl⟩⟩, ?_⟩
    exact congrArg₂ Shape.circle (Solved.position_vertexAt _ ⟨.center, none, center⟩)
      (finiteOr_self radius)
  | arc center radius a b =>
    have hends := hplaces
    obtain ⟨start, hstart, hends⟩ := bind_eq_ok.mp hends
    obtain ⟨stop, hstop, hends⟩ := bind_eq_ok.mp hends
    cases hends
    have hring := hg.ring_unmoved hids he radius rfl
    have hcenter := hg.center?_unmoved hids he hplaces center (by simp) radius
    have hp := hpoint .start start (by simp)
    have hq := hpoint .stop stop (by simp)
    refine ⟨_, bind_eq_ok.mpr ⟨_, hring, bind_eq_ok.mpr ⟨_, hstart, bind_eq_ok.mpr ⟨_, hp,
      bind_eq_ok.mpr ⟨_, hstop, bind_eq_ok.mpr ⟨_, hq, bind_eq_ok.mpr ⟨_, hcenter, rfl⟩⟩⟩⟩⟩⟩, ?_⟩
    have hposition := Solved.position_vertexAt (⟨id, .arc center radius a b⟩ : Element α)
      ⟨.center, none, center⟩
    dsimp only at hposition
    simp only [Option.map_some, Option.getD_some, hposition, Shape.restored, turned,
      pointAtAngle_eq_ok hstart, pointAtAngle_eq_ok hstop]
    rw [Element.ring, finiteOr_self]
  | spline points =>
    refine ⟨_, rfl, congrArg Shape.spline ?_⟩
    cases hplaces
    refine List.ext_getElem (List.length_mapIdx) fun i hi hj => ?_
    rw [List.getElem_mapIdx, hg.vertex?_unmoved hids he
      (p := ⟨.control, some i, points[i]⟩) rfl (List.mem_mapIdx.mpr ⟨i, hj, rfl⟩)]
    exact Solved.position_vertexAt _ ⟨.control, some i, points[i]⟩
  | foreign => exact ⟨none, rfl, rfl⟩

/-- Every element is written back, and as it was but for what is computed. -/
theorem element_unmoved (hlt : ∀ a b : α, lt a b = true → lt b a = false) :
    ∃ e', g.unmoved.element e = .ok e' ∧ e.Restored e' := by
  by_cases hfinite : e.shape.kind? = some .rectangle → e.shape.isFinite = true
  · obtain ⟨new, hnew, hshape⟩ := hg.shape?_unmoved hids he hlt hfinite
    have hold : g.unmoved.element e = .ok { e with shape := new.getD e.shape } :=
      bind_eq_ok.mpr ⟨new, hnew, rfl⟩
    exact ⟨_, hold, rfl, (Solved.element_alike hold).kind, fun _ => hshape⟩
  · -- a rectangle asks for nothing that could be missing
    have hrectangle : ∃ a b, e.shape = .rectangle a b := by
      cases hshape : e.shape with
      | rectangle a b => exact ⟨a, b, rfl⟩
      | _ => simp [hshape, Shape.kind?] at hfinite
    obtain ⟨a, b, hshape⟩ := hrectangle
    have hold : g.unmoved.element e =
        .ok { e with shape := (Solved.around? (g.unmoved.corners e.id)).getD e.shape } := by
      rw [Solved.element, Solved.shape?, hshape]
      rfl
    exact ⟨_, hold, rfl, (Solved.element_alike hold).kind, fun h => absurd h hfinite⟩

omit hids he in
/-- All points and circles of a graph are found under keys. -/
theorem names_unmoved : ∃ keys, g.unmoved.names.mapM Value.asKey = .ok keys := by
  refine mapM_isOk fun name hname => ?_
  obtain ⟨hvertices, hrings⟩ := hg.named
  rcases List.mem_append.mp hname with hname | hname
  · obtain ⟨v, hv, rfl⟩ := List.mem_map.mp hname
    obtain ⟨text, htext⟩ := hvertices v hv
    exact ⟨v.id, by rw [htext]; exact Value.asKey_text text⟩
  · obtain ⟨r, hr, rfl⟩ := List.mem_map.mp hname
    obtain ⟨text, htext⟩ := hrings r hr
    exact ⟨r.id, by rw [htext]; exact Value.asKey_text text⟩

omit he in
theorem elements_unmoved (hlt : ∀ a b : α, lt a b = true → lt b a = false) :
    ∃ es', g.unmoved.elements es = .ok es' ∧ List.Forall₂ Element.Restored es es' := by
  have helement := fun e (he : e ∈ es) => hg.element_unmoved hids he hlt
  obtain ⟨keys, hkeys⟩ := hg.names_unmoved
  obtain ⟨es', hes'⟩ := mapM_isOk fun e he => (helement e he).imp fun _ h => h.1
  refine ⟨es', bind_eq_ok.mpr ⟨keys, hkeys, hes'⟩, ?_⟩
  refine List.forall₂_iff_get.mpr ⟨(mapM_eq_ok.mp hes').length_eq, fun i hi hj => ?_⟩
  obtain ⟨e', he', hrestored⟩ := helement _ (List.get_mem es ⟨i, hi⟩)
  have hget := (mapM_eq_ok.mp hes').get hi hj
  rw [hget] at he'
  exact Except.ok.inj he' ▸ hrestored

end Graph.Covers

/-! ## The drawing -/

/-- In exact arithmetic what is neither a rectangle nor an arc is restored as it was: the length of
a line along an axis that is computed from its ends is the length that its end was computed from. -/
theorem Shape.restored_exact {K : Type} [Field K] [LinearOrder K] [Elementary K] (shape : Shape K)
    (hrectangle : shape.kind? ≠ some .rectangle) (harc : shape.kind? ≠ some .arc) :
    shape.restored = shape := by
  cases shape with
  | hline start length =>
    rw [restored, finiteOr_eq, add_sub_cancel_left]
  | vline start length =>
    rw [restored, finiteOr_eq, add_sub_cancel_left]
  | rectangle => exact absurd rfl hrectangle
  | arc => exact absurd rfl harc
  | line | circle | spline | foreign => rfl

/-- **Writing back what did not move.** If the graph of a drawing with different identifiers is
written back as it is, every element is restored in its place: lines, circles and splines as they
were, lines along an axis with the length between their ends, rectangles as the box around their
corners, arcs with the directions of their ends. In exact arithmetic only rectangles and arcs can
differ from what they were. -/
theorem elements_restored :
    (∀ (es : List (Element Float)) (g : Graph Float), DistinctIds es →
      Graph.ofElements es = .ok g →
      ∃ es', Solved.elements ⟨g.vertices, g.rings⟩ es = .ok es' ∧
        List.Forall₂ Element.Restored es es') ∧
    ∀ (K : Type) [Field K] [LinearOrder K] [Elementary K] (es : List (Element K)) (g : Graph K),
      DistinctIds es → Graph.ofElements es = .ok g →
      ∃ es', Solved.elements ⟨g.vertices, g.rings⟩ es = .ok es' ∧
        List.Forall₂ (fun e e' => e.Restored e' ∧
          (e.shape.kind? ≠ some .rectangle → e.shape.kind? ≠ some .arc → e' = e)) es es' := by
  constructor
  · intro es g hids hg
    exact (Graph.ofElements_covers hg).elements_unmoved hids fun a b h => not_lt_of_le (le_of_lt h)
  · intro K _ _ _ es g hids hg
    obtain ⟨es', hes', hrestored⟩ := (Graph.ofElements_covers hg).elements_unmoved hids
      fun a b h => decide_eq_false (lt_asymm (of_decide_eq_true h))
    refine ⟨es', hes', hrestored.imp fun e e' h => ⟨h, fun hrectangle harc => ?_⟩⟩
    have hshape := h.shape fun hkind => absurd hkind hrectangle
    rw [Shape.restored_exact _ hrectangle harc] at hshape
    cases e
    cases e'
    exact congrArg₂ Element.mk h.id hshape

/-- Elements of all kinds, with infinite and undefined fields where these do not matter. -/
def assortedDrawing : List (Element Float) :=
  [⟨.text "a", .line ⟨0.0 / 0.0, 1.0 / 0.0⟩ ⟨1.0, -0.0⟩⟩, ⟨.text "h", .hline ⟨1.0e16, 0.0⟩ 1.0⟩,
    ⟨.text "v", .vline ⟨0.0, 1.0 / 0.0⟩ 2.0⟩, ⟨.text "r", .rectangle ⟨3.0, 1.0⟩ ⟨-1.0, 2.0⟩⟩,
    ⟨.text "c", .circle ⟨2.0, 0.0 / 0.0⟩ (1.0 / 0.0)⟩, ⟨.text "b", .arc ⟨1.0, 2.0⟩ 3.0 0.0 1.0⟩,
    ⟨.text "s", .spline [⟨4.0, 0.0⟩, ⟨0.0 / 0.0, 1.0⟩]⟩]

/-- A line along an axis that starts far out. -/
def farLine : List (Element ℚ) := [⟨.text "h", .hline ⟨10000000000000000, 0⟩ 1⟩]

/-- A length that is lost beside a large coordinate is zero from then on, and one beside an infinite
coordinate stays. The box starts at its smaller coordinates. In exact arithmetic no length is
lost. -/
theorem elements_restored_assorted :
    (∃ g es', Graph.ofElements assortedDrawing = .ok g ∧
      Solved.elements ⟨g.vertices, g.rings⟩ assortedDrawing = .ok es' ∧
      es'.map (·.id) = assortedDrawing.map (·.id) ∧
      es'.map (·.shape) =
        [.line ⟨0.0 / 0.0, 1.0 / 0.0⟩ ⟨1.0, -0.0⟩, .hline ⟨1.0e16, 0.0⟩ 0.0,
          .vline ⟨0.0, 1.0 / 0.0⟩ 2.0, .rectangle ⟨-1.0, 1.0⟩ ⟨3.0, 2.0⟩,
          .circle ⟨2.0, 0.0 / 0.0⟩ (1.0 / 0.0),
          .arc ⟨1.0, 2.0⟩ 3.0 (turned ⟨1.0, 2.0⟩ 3.0 0.0) (turned ⟨1.0, 2.0⟩ 3.0 1.0),
          .spline [⟨4.0, 0.0⟩, ⟨0.0 / 0.0, 1.0⟩]]) ∧
      ∃ g : Graph ℚ, Graph.ofElements farLine = .ok g ∧
        Solved.elements ⟨g.vertices, g.rings⟩ farLine = .ok farLine := by
  constructor
  · have hplaces : ∀ e ∈ assortedDrawing, e.shape.places.isOk = true := by decide +kernel
    obtain ⟨g, hg⟩ := Graph.ofElements_isOk fun e he => exists_eq_ok_of_isOk (hplaces e he)
    obtain ⟨es', hes', hrestored⟩ :=
      elements_restored.1 assortedDrawing g
        ⟨by simp [assortedDrawing], by simp [assortedDrawing]⟩ hg
    refine ⟨g, es', hg, hes', ?_⟩
    rcases hrestored with
      _ | ⟨ha, _ | ⟨hh, _ | ⟨hv, _ | ⟨hr, _ | ⟨hc, _ | ⟨hb, _ | ⟨hs, _ | _⟩⟩⟩⟩⟩⟩⟩
    constructor
    · simp only [List.map_cons, List.map_nil, ha.id, hh.id, hv.id, hr.id, hc.id, hb.id, hs.id]
      rfl
    · simp only [List.map_cons, List.map_nil]
      rw [ha.shape nofun, hh.shape nofun, hv.shape nofun, hr.shape fun _ => by decide +kernel,
        hc.shape nofun, hb.shape nofun, hs.shape nofun]
      rfl
  · obtain ⟨g, hg⟩ : ∃ g : Graph ℚ, Graph.ofElements farLine = .ok g :=
      Graph.ofElements_isOk_iff.mpr fun e he => by rw [List.mem_singleton.mp he]; rfl
    obtain ⟨es', hes', hrestored⟩ :=
      elements_restored.2 ℚ farLine g ⟨by simp [farLine], by simp [farLine]⟩ hg
    rcases hrestored with _ | ⟨h, _ | _⟩
    rw [h.2 nofun nofun] at hes'
    exact ⟨g, hg, hes'⟩

end Drafting
