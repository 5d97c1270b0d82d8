import Drafting.Proofs.Compilation
import Drafting.Proofs.Numbers
import Drafting.Solver.Backend

/-!
What evaluating a system reads. The equation of a constraint refers to the first few of the points,
lines and circles that the names of the constraint resolve to, however many there are. At a state
it reads coordinates of points that it refers to, itself or as an end of a line or the center of a
circle, and radii of circles that it refers to, and nothing else: states that agree there give the
same mode and the same residuals.

Coordinates come before radii in a state, so that all of this is there in a list with a number for
every variable. Together with the domains of the arc cosine and of the square root this is why
evaluating a system at a state never fails, whatever the numbers are.
-/

namespace Drafting

open Scalar

variable {α : Type} {n k : Nat}

/-! ## What an equation refers to -/

namespace Equation

/-- The points that an equation refers to by themselves. -/
def points : Equation n k → List (Fin n)
  | levelPoints p q | plumbPoints p q | samePoint p q | pointDistance p q => [p, q]
  | pointOnLine p _ | pointAtCenter p _ | pointLineDistance p _ | pointOnCircle p _
  | midpoint p _ => [p]
  | _ => []

/-- The lines that an equation refers to. -/
def lines : Equation n k → List (LineRef n)
  | levelLine l | plumbLine l | pointOnLine _ l | centerOnLine _ l | lineLength l
  | lineCircleDistance l _ | pointLineDistance _ l | lineAngle l | tangentLine l _
  | midpoint _ l => [l]
  | angleBetween l m | parallel l m | perpendicular l m | equalLength l m => [l, m]
  | _ => []

/-- The circles that an equation refers to. -/
def circles : Equation n k → List (CircleRef n k)
  | centerOnLine c _ | pointAtCenter _ c | lineCircleDistance _ c | radius c | tangentLine _ c
  | pointOnCircle _ c => [c]
  | sameCenter c d | circleDistance c d | tangentCircles c d => [c, d]
  | _ => []

/-- The points that an equation refers to, by themselves, as ends of lines or as centers. -/
def vertices (e : Equation n k) : List (Fin n) :=
  e.points ++ e.lines.flatMap (fun l => [l.p1, l.p2]) ++ e.circles.map (·.center)

/-- What an equation refers to are the first ones of some points, lines and circles. -/
structure Heads (e : Equation n k) (points : List (Fin n)) (lines : List (LineRef n))
    (circles : List (CircleRef n k)) : Prop where
  points : e.points <+: points
  lines : e.lines <+: lines
  circles : e.circles <+: circles

end Equation

/-- A pattern that fits takes its equation from the first things of each sort. -/
theorem ConstraintKind.equation?_heads {kind : ConstraintKind} {points : List (Fin n)}
    {lines : List (LineRef n)} {circles : List (CircleRef n k)} {e : Equation n k}
    (h : kind.equation? points lines circles = some e) : e.Heads points lines circles := by
  cases kind with
  | fixed => cases h
  | horizontal | vertical | coincident | distance | radius | angle | parallel | perpendicular
  | equalLength | tangent | concentric | midpoint =>
    simp only [equation?] at h
    split at h <;> cases h <;>
      exact ⟨by simp [Equation.points], by simp [Equation.lines], by simp [Equation.circles]⟩

/-! ## What an equation reads -/

namespace Equation

/-- A place in a state that an equation may read: a coordinate of a point or the radius of a circle
that it refers to. -/
inductive MayRead (e : Equation n k) : Nat → Prop where
  | first {p : Fin n} (hp : p ∈ e.vertices) : MayRead e (2 * p.val)
  | second {p : Fin n} (hp : p ∈ e.vertices) : MayRead e (2 * p.val + 1)
  | radius {c : CircleRef n k} (hc : c ∈ e.circles) : MayRead e (2 * n + c.radius.val)

theorem MayRead.lt {e : Equation n k} {i : Nat} (h : e.MayRead i) : i < 2 * n + k := by
  cases h <;> omega

variable {e : Equation n k}

theorem mayRead_point {p : Fin n} (hp : p ∈ e.vertices) : ∀ i ∈ pointPlaces p, e.MayRead i := by
  intro i hi
  simp only [pointPlaces, List.mem_cons, List.not_mem_nil, or_false] at hi
  rcases hi with rfl | rfl
  · exact .first hp
  · exact .second hp

theorem mayRead_line {l : LineRef n} (hl : l ∈ e.lines) : ∀ i ∈ linePlaces l, e.MayRead i := by
  have hends : ∀ p ∈ [l.p1, l.p2], p ∈ e.vertices := fun p hp =>
    List.mem_append_left _ (List.mem_append_right _ (List.mem_flatMap.mpr ⟨l, hl, hp⟩))
  exact List.forall_mem_append.mpr
    ⟨mayRead_point (hends _ (by simp)), mayRead_point (hends _ (by simp))⟩

theorem mayRead_center {c : CircleRef n k} (hc : c ∈ e.circles) :
    ∀ i ∈ centerPlaces c, e.MayRead i :=
  mayRead_point (List.mem_append_right _ (List.mem_map.mpr ⟨c, hc, rfl⟩))

theorem mayRead_radius {c : CircleRef n k} (hc : c ∈ e.circles) :
    ∀ i ∈ [radiusPlace c], e.MayRead i := by
  intro i hi
  obtain rfl := List.mem_singleton.mp hi
  exact .radius hc

theorem mayRead_circle {c : CircleRef n k} (hc : c ∈ e.circles) :
    ∀ i ∈ circlePlaces c, e.MayRead i :=
  List.forall_mem_append.mpr ⟨mayRead_center hc, mayRead_radius hc⟩

theorem mayRead_lineCircle [Scalar α] {l : LineRef n} {c : CircleRef n k} (hl : l ∈ e.lines)
    (hc : c ∈ e.circles) (x : Placement α n k) (guard : α) :
    ∀ i ∈ lineCirclePlaces x l c guard, e.MayRead i := by
  refine List.forall_mem_append.mpr
    ⟨List.forall_mem_append.mpr ⟨mayRead_center hc, mayRead_line hl⟩, ?_⟩
  split
  · exact mayRead_radius hc
  · simp

/-- An equation reads only what it may. -/
theorem footprint_mayRead [Scalar α] (x : Placement α n k) (e : Equation n k) :
    ∀ i ∈ e.footprint x, e.MayRead i := by
  have happend : ∀ {as bs : List Nat}, (∀ i ∈ as, e.MayRead i) → (∀ i ∈ bs, e.MayRead i) →
      ∀ i ∈ as ++ bs, e.MayRead i := fun has hbs => List.forall_mem_append.mpr ⟨has, hbs⟩
  cases e with
  | levelPoints p q =>
    have hpoint : ∀ r ∈ [p, q], MayRead (levelPoints p q : Equation n k) (2 * r.val + 1) :=
      fun r hr => .second (by simpa [vertices, points, lines, circles] using hr)
    simpa [footprint] using hpoint
  | plumbPoints p q =>
    have hpoint : ∀ r ∈ [p, q], MayRead (plumbPoints p q : Equation n k) (2 * r.val) :=
      fun r hr => .first (by simpa [vertices, points, lines, circles] using hr)
    simpa [footprint] using hpoint
  | levelLine l | plumbLine l | lineLength l | lineAngle l =>
    exact mayRead_line (by simp [lines])
  | samePoint p q | pointDistance p q =>
    exact happend (mayRead_point (by simp [vertices, points]))
      (mayRead_point (by simp [vertices, points]))
  | pointOnLine p l | pointLineDistance p l | midpoint p l =>
    exact happend (mayRead_point (by simp [vertices, points])) (mayRead_line (by simp [lines]))
  | centerOnLine c l =>
    exact happend (mayRead_center (by simp [circles])) (mayRead_line (by simp [lines]))
  | pointAtCenter p c =>
    exact happend (mayRead_point (by simp [vertices, points]))
      (mayRead_center (by simp [circles]))
  | sameCenter c d =>
    exact happend (mayRead_center (by simp [circles])) (mayRead_center (by simp [circles]))
  | lineCircleDistance l c | tangentLine l c =>
    exact mayRead_lineCircle (by simp [lines]) (by simp [circles]) x _
  | circleDistance c d | tangentCircles c d =>
    exact happend (mayRead_circle (by simp [circles])) (mayRead_circle (by simp [circles]))
  | radius c => exact mayRead_radius (by simp [circles])
  | angleBetween l m | parallel l m | perpendicular l m | equalLength l m =>
    exact happend (mayRead_line (by simp [lines])) (mayRead_line (by simp [lines]))
  | pointOnCircle p c =>
    exact happend (mayRead_point (by simp [vertices, points]))
      (mayRead_circle (by simp [circles]))

end Equation

/-! ## States that agree -/

namespace State

/-- Two states have the same numbers at some places. -/
def AgreeOn (places : List Nat) (x y : State α n k) : Prop :=
  ∀ i : Fin (2 * n + k), i.val ∈ places → x.get i = y.get i

variable {x y : State α n k}

theorem agreeOn_append {as bs : List Nat} :
    AgreeOn (as ++ bs) x y ↔ AgreeOn as x y ∧ AgreeOn bs x y := by
  constructor
  · intro h
    exact ⟨fun i hi => h i (List.mem_append_left _ hi),
      fun i hi => h i (List.mem_append_right _ hi)⟩
  · rintro ⟨has, hbs⟩ i hi
    rcases List.mem_append.mp hi with hi | hi
    · exact has i hi
    · exact hbs i hi

theorem AgreeOn.point {p : Fin n} (h : AgreeOn (Equation.pointPlaces p) x y) :
    x.placement.point p = y.placement.point p := by
  have hfirst := h ⟨2 * p.val, by omega⟩ (by simp [Equation.pointPlaces])
  have hsecond := h ⟨2 * p.val + 1, by omega⟩ (by simp [Equation.pointPlaces])
  simp only [placement, hfirst, hsecond]

theorem AgreeOn.line {l : LineRef n} (h : AgreeOn (Equation.linePlaces l) x y) :
    x.placement.point l.p1 = y.placement.point l.p1 ∧
      x.placement.point l.p2 = y.placement.point l.p2 := by
  obtain ⟨hp1, hp2⟩ := agreeOn_append.mp h
  exact ⟨hp1.point, hp2.point⟩

theorem AgreeOn.radius {c : CircleRef n k} (h : AgreeOn [Equation.radiusPlace c] x y) :
    x.placement.radius c.radius = y.placement.radius c.radius :=
  h ⟨2 * n + c.radius.val, by omega⟩ (by simp [Equation.radiusPlace])

theorem AgreeOn.circle {c : CircleRef n k} (h : AgreeOn (Equation.circlePlaces c) x y) :
    x.placement.point c.center = y.placement.point c.center ∧
      x.placement.radius c.radius = y.placement.radius c.radius := by
  obtain ⟨hcenter, hradius⟩ := agreeOn_append.mp h
  exact ⟨AgreeOn.point hcenter, hradius.radius⟩

end State

namespace Equation

variable [Scalar α] {x y : State α n k}

theorem centerVector_congr {c d : CircleRef n k}
    (hc : x.placement.point c.center = y.placement.point c.center)
    (hd : x.placement.point d.center = y.placement.point d.center) :
    x.placement.centerVector c d = y.placement.centerVector c d := by
  simp only [Placement.centerVector, hc, hd]

theorem direction_congr {l : LineRef n} (h : State.AgreeOn (linePlaces l) x y) :
    x.placement.direction l = y.placement.direction l := by
  simp only [Placement.direction, h.line.1, h.line.2]

/-- The radius is read only where the line has a distance, which the other places tell. -/
theorem lineCircle_congr {l : LineRef n} {c : CircleRef n k} {guard : α}
    (h : State.AgreeOn (lineCirclePlaces x.placement l c guard) x y) (f : α → α → α) :
    (x.placement.lineDistance? l (x.placement.point c.center) guard).map
        (f · (x.placement.radius c.radius)) =
      (y.placement.lineDistance? l (y.placement.point c.center) guard).map
        (f · (y.placement.radius c.radius)) := by
  obtain ⟨h, hradius⟩ := State.agreeOn_append.mp h
  obtain ⟨hcenter, hline⟩ := State.agreeOn_append.mp h
  have hdistance : x.placement.lineDistance? l (x.placement.point c.center) guard =
      y.placement.lineDistance? l (y.placement.point c.center) guard := by
    obtain ⟨hp1, hp2⟩ := hline.line
    simp only [Placement.lineDistance?, State.AgreeOn.point hcenter, hp1, hp2]
  rw [← hdistance]
  cases hd : x.placement.lineDistance? l (x.placement.point c.center) guard with
  | none => rfl
  | some dist =>
    rw [hd] at hradius
    have hr := State.AgreeOn.radius (c := c) (x := x) (y := y) (by simpa using hradius)
    simp only [Option.map_some, hr]

/-- **An equation reads its footprint only**: states that agree there have the same residuals. -/
theorem residuals_congr (o : Options α) (target : α) (mode : Option Mode) {e : Equation n k}
    (h : State.AgreeOn (e.footprint x.placement) x y) :
    e.residuals o x.placement target mode = e.residuals o y.placement target mode := by
  cases e with
  | levelPoints p q =>
    have hp := h ⟨2 * p.val + 1, by omega⟩ (by simp [footprint])
    have hq := h ⟨2 * q.val + 1, by omega⟩ (by simp [footprint])
    simp only [residuals, State.placement, hp, hq]
  | plumbPoints p q =>
    have hp := h ⟨2 * p.val, by omega⟩ (by simp [footprint])
    have hq := h ⟨2 * q.val, by omega⟩ (by simp [footprint])
    simp only [residuals, State.placement, hp, hq]
  | levelLine l | plumbLine l | lineLength l | lineAngle l =>
    obtain ⟨hp1, hp2⟩ := State.AgreeOn.line h
    simp only [residuals, Placement.length, Placement.direction, hp1, hp2]
  | samePoint p q | pointDistance p q =>
    obtain ⟨hp, hq⟩ := State.agreeOn_append.mp h
    simp only [residuals, hp.point, hq.point]
  | pointOnLine p l | pointLineDistance p l | midpoint p l =>
    obtain ⟨hp, hl⟩ := State.agreeOn_append.mp h
    obtain ⟨hp1, hp2⟩ := hl.line
    simp only [residuals, Placement.lineValue, Placement.lineDistance?, hp.point, hp1, hp2]
  | centerOnLine c l =>
    obtain ⟨hc, hl⟩ := State.agreeOn_append.mp h
    obtain ⟨hp1, hp2⟩ := hl.line
    simp only [residuals, Placement.lineValue, State.AgreeOn.point hc, hp1, hp2]
  | pointAtCenter p c =>
    obtain ⟨hp, hc⟩ := State.agreeOn_append.mp h
    simp only [residuals, hp.point, State.AgreeOn.point hc]
  | sameCenter c d =>
    obtain ⟨hc, hd⟩ := State.agreeOn_append.mp h
    simp only [residuals,
      centerVector_congr (State.AgreeOn.point hc) (State.AgreeOn.point hd)]
  | lineCircleDistance l c =>
    exact congrArg orZero (lineCircle_congr h fun dist r => dist - r - target)
  | tangentLine l c => exact congrArg orZero (lineCircle_congr h fun dist r => dist - r)
  | circleDistance c d =>
    obtain ⟨hc, hd⟩ := State.agreeOn_append.mp h
    simp only [residuals, circleDistanceResiduals, centerVector_congr hc.circle.1 hd.circle.1,
      hc.circle.2, hd.circle.2]
  | tangentCircles c d =>
    obtain ⟨hc, hd⟩ := State.agreeOn_append.mp h
    simp only [residuals, tangentCirclesResiduals, centerVector_congr hc.circle.1 hd.circle.1,
      hc.circle.2, hd.circle.2]
  | radius c => simp only [residuals, State.AgreeOn.radius h]
  | angleBetween l m | parallel l m | perpendicular l m | equalLength l m =>
    obtain ⟨hl, hm⟩ := State.agreeOn_append.mp h
    have hdirections : ∀ guard,
        x.placement.directions? l m guard = y.placement.directions? l m guard := by
      intro guard
      simp only [Placement.directions?, direction_congr hl, direction_congr hm]
    simp only [residuals, hdirections, Placement.length, direction_congr hl, direction_congr hm]
  | pointOnCircle p c =>
    obtain ⟨hp, hc⟩ := State.agreeOn_append.mp h
    simp only [residuals, hp.point, hc.circle.1, hc.circle.2]

/-- A mode is chosen by what the residuals read. -/
theorem mode?_congr (target : α) {e : Equation n k}
    (h : State.AgreeOn (e.footprint x.placement) x y) :
    e.mode? x.placement target = e.mode? y.placement target := by
  cases e with
  | circleDistance c d =>
    obtain ⟨hc, hd⟩ := State.agreeOn_append.mp h
    simp only [mode?, distanceMode, centerVector_congr hc.circle.1 hd.circle.1, hc.circle.2,
      hd.circle.2]
  | tangentCircles c d =>
    obtain ⟨hc, hd⟩ := State.agreeOn_append.mp h
    simp only [mode?, tangentMode, centerVector_congr hc.circle.1 hd.circle.1, hc.circle.2,
      hd.circle.2]
  | _ => rfl

/-- The cosine whose arc is taken lies between −1 and 1, also where it is undefined at first. -/
theorem cosineBetween_mem (v w : Point Float) (lengths : Float) :
    le (-one) (cosineBetween v w lengths) = true ∧ le (cosineBetween v w lengths) one = true :=
  between_larger_smaller (by decide +kernel) (by decide +kernel) (by decide +kernel) _

end Equation

/-! ## Whole systems -/

namespace System

variable [Scalar α] {s : System α n k} {x y : State α n k}

/-- A system reads a place at a state: one of its equations does. -/
def Reads (s : System α n k) (x : State α n k) (i : Nat) : Prop :=
  ∃ t ∈ s.terms, i ∈ t.equation.footprint x.placement

instance (s : System α n k) (x : State α n k) (i : Nat) : Decidable (s.Reads x i) :=
  inferInstanceAs (Decidable (∃ t ∈ s.terms, i ∈ t.equation.footprint x.placement))

theorem agreeOn_footprint {t : Term α n k} (ht : t ∈ s.terms)
    (h : ∀ i : Fin (2 * n + k), s.Reads x i.val → x.get i = y.get i) :
    State.AgreeOn (t.equation.footprint x.placement) x y :=
  fun i hi => h i ⟨t, ht, hi⟩

/-- States that agree on what a system reads at the first have the same modes. -/
theorem modes_congr (h : ∀ i : Fin (2 * n + k), s.Reads x i.val → x.get i = y.get i) :
    s.modes x = s.modes y :=
  List.map_congr_left fun t ht => Equation.mode?_congr t.target (agreeOn_footprint ht h)

/-- States that agree on what a system reads at the first have the same residuals. -/
theorem residuals_congr (h : ∀ i : Fin (2 * n + k), s.Reads x i.val → x.get i = y.get i)
    (modes : List (Option Mode)) : s.residuals x modes = s.residuals y modes := by
  unfold residuals
  refine List.flatMap_congr fun tm htm => ?_
  have ht : tm.1 ∈ s.terms := (List.of_mem_zip htm).1
  exact Equation.residuals_congr s.options tm.1.target tm.2 (agreeOn_footprint ht h)

end System

/-! ## Evaluating at a list -/

namespace System

theorem reaches_eq_ok {xs : List α} {places : List Nat} (h : ∀ i ∈ places, i < xs.length) :
    reaches xs places = .ok () := by
  unfold reaches
  rw [if_pos (by simpa using h)]

/-- A list with a number for every variable reaches all that equations read. -/
theorem reaches_footprints [Scalar α] (x : State α n k) (y : Placement α n k)
    (es : List (Equation n k)) :
    reaches x.toList (es.flatMap (·.footprint y)) = .ok () := by
  refine reaches_eq_ok fun i hi => ?_
  obtain ⟨e, _, hi⟩ := List.mem_flatMap.mp hi
  rw [Vector.length_toList]
  exact (e.footprint_mayRead y i hi).lt

theorem modesAt_toList [Scalar α] (s : System α n k) (x : State α n k) :
    s.modesAt x.toList = .ok (s.modes x) := by
  have hreaches := reaches_footprints x x.placement
    ((s.terms.filter (·.equation.hasModes)).map (·.equation))
  rw [List.flatMap_map] at hreaches
  unfold modesAt
  rw [State.ofList_toList]
  exact bind_eq_ok.mpr ⟨(), hreaches, rfl⟩

theorem residualsAt_toList [Scalar α] (s : System α n k) (x : State α n k)
    (modes : List (Option Mode)) :
    s.residualsAt x.toList modes = .ok (s.residuals x modes) := by
  have hreaches := reaches_footprints x x.placement
    ((s.terms.zip modes).map (·.1.equation))
  rw [List.flatMap_map] at hreaches
  unfold residualsAt
  rw [State.ofList_toList]
  exact bind_eq_ok.mpr ⟨(), hreaches, rfl⟩

end System

/-! ## Compiled terms -/

/-- The equation of a constraint refers to what the names of the constraint resolve to. -/
theorem Constraint.compile_term [Scalar α] {vs : Vector (Vertex α) n} {edges : List Edge}
    {rs : Vector (Ring α) k} {c : Constraint} {t : Term α n k}
    (h : c.compile vs edges rs = .ok (.term t)) :
    t.constraint = c ∧ ∃ points lines circles,
      c.ResolvesTo vs edges rs points lines circles ∧ t.equation.Heads points lines circles := by
  obtain ⟨points, lines, circles, hnames, ⟨_, hpart⟩ | ⟨_, e, target, he, _, hpart⟩ |
    ⟨_, _, hpart⟩⟩ := compile_cases h
  · cases hpart
  · cases hpart
    exact ⟨rfl, points, lines, circles, hnames, ConstraintKind.equation?_heads he⟩
  · cases hpart

/-- Every term of a compiled system comes from an enabled constraint. -/
theorem System.compile_term [Scalar α] {vs : Vector (Vertex α) n} {edges : List Edge}
    {rs : Vector (Ring α) k} {cs : List Constraint} {o : Options α} {s : System α n k}
    (h : System.compile vs edges rs cs o = .ok s) {t : Term α n k} (ht : t ∈ s.terms) :
    ∃ c ∈ cs, c.isEnabled = true ∧ c.compile vs edges rs = .ok (.term t) := by
  obtain ⟨_, _, h⟩ := bind_eq_ok.mp h
  obtain ⟨parts, hparts, h⟩ := bind_eq_ok.mp h
  cases h
  obtain ⟨part, hpart, hterm⟩ := List.mem_filterMap.mp ht
  obtain ⟨c, hc, hcompile⟩ := exists_of_forall₂_right (mapM_eq_ok.mp hparts) hpart
  obtain ⟨hc, henabled⟩ := List.mem_filter.mp hc
  refine ⟨c, hc, henabled, ?_⟩
  cases part with
  | pins | nothing => cases hterm
  | term t' =>
    cases hterm
    exact hcompile

/-- A term of the system of a problem has all that it refers to and reads. -/
structure Term.Grounded (p : Problem) (t : Term Float p.vertices.length p.rings.length) :
    Prop where
  /-- It refers to the first ones of what the names of its constraint resolve to. -/
  references : ∃ points lines circles,
    t.constraint.ResolvesTo p.vertexVector p.edges p.ringVector points lines circles ∧
      t.equation.Heads points lines circles
  /-- The coordinates of its points come before all radii. -/
  coordinates : ∀ q ∈ t.equation.vertices, 2 * q.val + 1 < 2 * p.vertices.length
  /-- The radii of its circles come after all coordinates, and are there. -/
  radii : ∀ c ∈ t.equation.circles, 2 * p.vertices.length ≤ Equation.radiusPlace c ∧
    Equation.radiusPlace c < 2 * p.vertices.length + p.rings.length
  /-- Nothing but these is read. -/
  reads : ∀ x : State Float p.vertices.length p.rings.length,
    ∀ i ∈ t.equation.footprint x.placement, t.equation.MayRead i
  /-- What is read decides the mode and the residuals. -/
  decides : ∀ x y : State Float p.vertices.length p.rings.length,
    State.AgreeOn (t.equation.footprint x.placement) x y →
      t.equation.mode? x.placement t.target = t.equation.mode? y.placement t.target ∧
      ∀ o mode, t.equation.residuals o x.placement t.target mode =
        t.equation.residuals o y.placement t.target mode

theorem Problem.term_grounded {p : Problem}
    {s : System Float p.vertices.length p.rings.length} (hs : p.system = .ok s)
    {t : Term Float p.vertices.length p.rings.length} (ht : t ∈ s.terms) : t.Grounded p := by
  obtain ⟨c, _, _, hcompile⟩ := System.compile_term hs ht
  obtain ⟨rfl, hreferences⟩ := Constraint.compile_term hcompile
  refine ⟨hreferences, ?_, ?_, ?_, ?_⟩
  · intro q _
    omega
  · intro d _
    unfold Equation.radiusPlace
    omega
  · intro x i hi
    exact t.equation.footprint_mayRead x.placement i hi
  · intro x y hxy
    exact ⟨Equation.mode?_congr t.target hxy,
      fun o mode => Equation.residuals_congr o t.target mode hxy⟩

/-- **Evaluating a system never fails.** Whatever problem has a system, its terms have all that they
refer to and read, so that modes and residuals can be had at every state, of whatever numbers. The
arc cosine is taken of nothing outside its domain, nor is the square root. -/
theorem evaluation_never_fails {p : Problem}
    {s : System Float p.vertices.length p.rings.length} (hs : p.system = .ok s) :
    (∀ t ∈ s.terms, t.Grounded p) ∧
    (∀ x : State Float p.vertices.length p.rings.length,
      s.modesAt x.toList = .ok (s.modes x) ∧
      ∀ modes, s.residualsAt x.toList modes = .ok (s.residuals x modes)) ∧
    (∀ (v w : Point Float) (lengths : Float),
      le (-one) (Equation.cosineBetween v w lengths) = true ∧
        le (Equation.cosineBetween v w lengths) one = true) ∧
    ∀ v : Point Float, lt (v.x * v.x + v.y * v.y) zero = false := by
  refine ⟨?_, ?_, Equation.cosineBetween_mem, ?_⟩
  · intro t ht
    exact Problem.term_grounded hs ht
  · intro x
    exact ⟨s.modesAt_toList x, s.residualsAt_toList x⟩
  · intro v
    exact not_squares_lt_zero v.x v.y

/-- Names that occur twice, constraints that name more than they need, and lines that share an
end. -/
def crowded : Problem where
  vertices :=
    [{ id := .text "a", x := 0.0, y := 0.0 }, { id := .text "a", x := 5.0, y := 5.0 },
      { id := .text "b", x := 1.0, y := 0.0 }]
  edges := [⟨.text "l", .text "a", .text "b"⟩, ⟨.text "l", .text "b", .text "b"⟩]
  rings := [⟨.text "r", .text "b", 2.0⟩, ⟨.text "r", .text "a", 3.0⟩]
  constraints :=
    [{ kind := .distance, id := .text "d", points := [.text "a", .text "b", .text "a"] },
      { kind := .radius, id := .text "e", circles := [.text "r", .text "r", .text "r"] },
      { kind := .angle, id := .text "f", points := [.text "b"], lines := [.text "l", .text "l"] },
      { kind := .tangent, id := .text "g", circles := [.text "r", .text "r"] }]
  options := .standard

/-- Four terms, evaluated where no number is defined. -/
theorem evaluation_never_fails_crowded : ∃ s, crowded.system = .ok s ∧ s.terms.length = 4 ∧
    (∀ t ∈ s.terms, t.Grounded crowded) ∧
    ∃ modes r, s.modesAt (List.replicate 8 (0.0 / 0.0)) = .ok modes ∧
      s.residualsAt (List.replicate 8 (0.0 / 0.0)) modes = .ok r := by
  have hsystem : (match crowded.system with
      | .ok s => decide (s.terms.length = 4)
      | .error _ => false) = true := by decide +kernel
  split at hsystem
  · rename_i s hs
    obtain ⟨hgrounded, hevaluates, _⟩ := evaluation_never_fails hs
    obtain ⟨hmodes, hresiduals⟩ := hevaluates (.replicate 8 (0.0 / 0.0))
    exact ⟨s, hs, of_decide_eq_true hsystem, hgrounded, _, _, hmodes, hresiduals _⟩
  · cases hsystem

end Drafting
