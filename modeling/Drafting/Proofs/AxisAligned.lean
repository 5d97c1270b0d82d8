import Drafting.Proofs.Patterns
import Drafting.Proofs.Rectangles
import Drafting.Proofs.Removal

/-!
Rectangles that stay along the axes. The four constraints that keep a rectangle along the axes
during a solve vanish exactly where its corners are those of such a rectangle: neighbours share a
row and a column in turn. From corners like these the same rectangle is written back, in whatever
order the two columns and the two rows stand, and even if one coincides with the other.
-/

namespace Drafting

open Scalar

/-- Four points in circular order whose neighbours share a row and a column in turn. -/
structure AxisAligned (c : Fin 4 → Point Float) : Prop where
  lower : ((c 0).y == (c 1).y) = true
  right : ((c 1).x == (c 2).x) = true
  upper : ((c 2).y == (c 3).y) = true
  left : ((c 3).x == (c 0).x) = true

/-- Corners along the axes in terms of where they stand. -/
theorem axisAligned_iff {c : Fin 4 → Point Float} (hc : ∀ m, (c m).isFinite = true) :
    AxisAligned c ↔ rank (c 0).y = rank (c 1).y ∧ rank (c 1).x = rank (c 2).x ∧
      rank (c 2).y = rank (c 3).y ∧ rank (c 3).x = rank (c 0).x := by
  have hx : ∀ m, Scalar.isFinite (c m).x = true := fun m => (Bool.and_eq_true_iff.mp (hc m)).1
  have hy : ∀ m, Scalar.isFinite (c m).y = true := fun m => (Bool.and_eq_true_iff.mp (hc m)).2
  rw [← beq_iff_rank (hy 0) (hy 1), ← beq_iff_rank (hx 1) (hx 2), ← beq_iff_rank (hy 2) (hy 3),
    ← beq_iff_rank (hx 3) (hx 0)]
  exact ⟨fun h => ⟨h.lower, h.right, h.upper, h.left⟩, fun h => ⟨h.1, h.2.1, h.2.2.1, h.2.2.2⟩⟩

/-! ## What the constraints ask -/

section Constraints

variable {n k : Nat} {vs : Vector (Vertex Float) n} {edges : List Edge}
  {rs : Vector (Ring Float) k} {cid q : Value} {l : LineRef n}

theorem compile_horizontal
    (h : resolveLine vs edges (Constraint.horizontal cid q).owner q = .ok l) :
    (Constraint.horizontal cid q).compile vs edges rs =
      .ok (.term ⟨.horizontal cid q, .levelLine l, zero⟩) :=
  bind_eq_ok.mpr ⟨[], rfl, bind_eq_ok.mpr ⟨[l], mapM_eq_ok.mpr (.cons h .nil),
    bind_eq_ok.mpr ⟨[], rfl, rfl⟩⟩⟩

theorem compile_vertical
    (h : resolveLine vs edges (Constraint.vertical cid q).owner q = .ok l) :
    (Constraint.vertical cid q).compile vs edges rs =
      .ok (.term ⟨.vertical cid q, .plumbLine l, zero⟩) :=
  bind_eq_ok.mpr ⟨[], rfl, bind_eq_ok.mpr ⟨[l], mapM_eq_ok.mpr (.cons h .nil),
    bind_eq_ok.mpr ⟨[], rfl, rfl⟩⟩⟩

variable {es : List (Element Float)} {g : Graph Float} {id : Value} {a b : Point Float}

/-- A constraint on an edge of a rectangle is about the two corners between which it runs. No other
edge of the drawing has the name of this one. -/
theorem resolveLine_edge (hes : DistinctIds es) (he : ⟨id, .rectangle a b⟩ ∈ es)
    (hg : Graph.ofElements es = .ok g) {i : Nat} (hi : i < 4) {c : Constraint}
    (hpoints : c.points = []) (hlines : c.lines = [.text (edgeName id i)])
    (hcircles : c.circles = []) :
    ∃ l, resolveLine g.vertexVector g.edges c.owner (.text (edgeName id i)) = .ok l ∧
      (g.vertexVector.get l.p1).id = .text (vertexName id .corner (some i)) ∧
      (g.vertexVector.get l.p2).id = .text (vertexName id .corner (some ((i + 1) % 4))) := by
  have hcovers := Graph.ofElements_covers hg
  have hedge : ⟨.text (edgeName id i), .text (vertexName id .corner (some i)),
      .text (vertexName id .corner (some ((i + 1) % 4)))⟩ ∈
        Element.edges ⟨id, .rectangle a b⟩ :=
    List.mem_map.mpr ⟨i, List.mem_range.mpr hi, rfl⟩
  have hrefers : c.RefersTo es := by
    refine ⟨by simp [hpoints], fun q hq => ?_, by simp [hcircles]⟩
    rw [hlines, List.mem_singleton] at hq
    exact ⟨_, he, _, hedge, hq⟩
  obtain ⟨l, hl⟩ := (hcovers.resolves hrefers).lines _ (by rw [hlines]; exact List.mem_cons_self)
  obtain ⟨first, hfirst, hp1, hp2⟩ := resolveLine_ends hl
  have hbeq := List.find?_some hfirst
  have hnodup : (g.edges.map (·.id)).Nodup :=
    (List.nodup_append.mp (List.nodup_append.mp
      (Graph.ofElements_separates hes hg).names).1).2.1
  obtain rfl := List.inj_on_of_nodup_map hnodup (List.mem_of_find?_eq_some hfirst)
    (hcovers.edges ▸ List.mem_flatMap.mpr ⟨_, he, hedge⟩) (Value.beq_text_iff.mp hbeq)
  have hname : ∀ {name : String} {j : Fin g.vertices.length},
      resolvePoint g.vertexVector c.owner (.text name) = .ok j →
        (g.vertexVector.get j).id = .text name := by
    intro name j hj
    obtain ⟨_, hfound, _⟩ := List.findIdx?_eq_some_iff_getElem.mp (resolvePoint_eq_ok.mp hj).2
    exact Value.beq_text_iff.mp hfound
  exact ⟨l, hl, hname hp1, hname hp2⟩

/-- A state of the graph of a drawing puts the corners of a rectangle at four points. -/
def PlacesCorners (g : Graph Float) (x : State Float g.vertices.length g.rings.length) (id : Value)
    (c : Fin 4 → Point Float) : Prop :=
  ∀ (i : Fin g.vertices.length) (m : Fin 4),
    (g.vertexVector.get i).id = .text (vertexName id .corner (some m.val)) →
      x.placement.point i = c m

theorem axisConstraints_rectangle (issued : Nat) (name : String) (a b : Point Float) :
    Implicit.axisConstraints issued [⟨.text name, .rectangle a b⟩] =
      .ok [.horizontal (.issued issued) (.text (edgeName (.text name) 0)),
        .vertical (.issued (issued + 1)) (.text (edgeName (.text name) 1)),
        .horizontal (.issued (issued + 2)) (.text (edgeName (.text name) 2)),
        .vertical (.issued (issued + 3)) (.text (edgeName (.text name) 3))] := rfl

/-- The constraints that keep a rectangle along the axes compile in every drawing that it is in, and
their residuals are zero exactly where its corners are those of such a rectangle. -/
theorem axisConstraints_vanish_iff (hes : DistinctIds es) (he : ⟨id, .rectangle a b⟩ ∈ es)
    (hg : Graph.ofElements es = .ok g) {issued : Nat} {cs : List Constraint}
    (hcs : Implicit.axisConstraints issued
      [(⟨id, .rectangle a b⟩ : Element Float)] = .ok cs) (o : Options Float) :
    ∃ sys, System.compile g.vertexVector g.edges g.ringVector cs o = .ok sys ∧
      ∀ x c, PlacesCorners g x id c → (∀ m, (c m).isFinite = true) →
        ((∀ r ∈ sys.residuals x (sys.modes x), (r == (zero : Float)) = true) ↔
          AxisAligned c) := by
  obtain ⟨name, rfl⟩ : ∃ name, id = .text name := hes.text _ he
  rw [axisConstraints_rectangle] at hcs
  obtain rfl := Except.ok.inj hcs
  obtain ⟨l, hl, hl1, hl2⟩ := resolveLine_edge hes he hg (i := 0) (by decide)
    (c := .horizontal (.issued issued) _) rfl rfl rfl
  obtain ⟨m, hm, hm1, hm2⟩ := resolveLine_edge hes he hg (i := 1) (by decide)
    (c := .vertical (.issued (issued + 1)) _) rfl rfl rfl
  obtain ⟨u, hu, hu1, hu2⟩ := resolveLine_edge hes he hg (i := 2) (by decide)
    (c := .horizontal (.issued (issued + 2)) _) rfl rfl rfl
  obtain ⟨v, hv, hv1, hv2⟩ := resolveLine_edge hes he hg (i := 3) (by decide)
    (c := .vertical (.issued (issued + 3)) _) rfl rfl rfl
  have hkeys : ∃ keys, (tableKeys g.vertexVector g.edges g.ringVector).mapM Value.asKey =
      .ok keys := by
    refine mapM_isOk fun q hq => ?_
    obtain ⟨name, rfl⟩ := (Graph.ofElements_covers hg).names_text q hq
    exact ⟨_, rfl⟩
  obtain ⟨keys, hkeys⟩ := hkeys
  refine ⟨_, bind_eq_ok.mpr ⟨keys, hkeys, bind_eq_ok.mpr ⟨_, mapM_eq_ok.mpr
    (.cons (compile_horizontal hl) (.cons (compile_vertical hm) (.cons (compile_horizontal hu)
      (.cons (compile_vertical hv) .nil)))), rfl⟩⟩, fun x c hc hfinite => ?_⟩
  have hx : ∀ m, Scalar.isFinite (c m).x = true := fun m =>
    (Bool.and_eq_true_iff.mp (hfinite m)).1
  have hy : ∀ m, Scalar.isFinite (c m).y = true := fun m =>
    (Bool.and_eq_true_iff.mp (hfinite m)).2
  change (∀ r ∈ [(x.placement.point l.p2).y - (x.placement.point l.p1).y,
    (x.placement.point m.p2).x - (x.placement.point m.p1).x,
    (x.placement.point u.p2).y - (x.placement.point u.p1).y,
    (x.placement.point v.p2).x - (x.placement.point v.p1).x], (r == (zero : Float)) = true) ↔ _
  rw [hc l.p1 0 hl1, hc l.p2 1 hl2, hc m.p1 1 hm1, hc m.p2 2 hm2, hc u.p1 2 hu1, hc u.p2 3 hu2,
    hc v.p1 3 hv1, hc v.p2 0 hv2, axisAligned_iff hfinite]
  simp only [List.forall_mem_cons, List.not_mem_nil, false_implies, implies_true, and_true,
    sub_isZero_iff, beq_iff_rank, hx, hy]
  grind

end Constraints

/-! ## What is written back -/

namespace Solved

/-- All four corners of a rectangle were solved and are finite. -/
def HasCorners (s : Solved Float) (id : Value) (c : Fin 4 → Point Float) : Prop :=
  ∀ m, s.corner? id m.val = some (c m)

variable {s : Solved Float} {id : Value} {c : Fin 4 → Point Float} (hc : s.HasCorners id c)
include hc

theorem corners_of_hasCorners : s.corners id = [c 0, c 1, c 2, c 3] := by
  have hrange : List.range 4 = (List.finRange 4).map Fin.val := by decide
  rw [corners_eq, hrange, List.filterMap_map]
  change (List.finRange 4).filterMap (fun m => s.corner? id m.val) = _
  rw [funext hc]
  rfl

theorem hasCorners_isFinite : ∀ m, (c m).isFinite = true := by
  intro m
  have hmem : c m ∈ s.corners id :=
    List.mem_filterMap.mpr ⟨m.val, List.mem_range.mpr m.isLt, hc m⟩
  exact corners_isFinite _ hmem

/-- Corners along the axes have two columns, two rows, and are where these meet. -/
theorem spots_of_axisAligned (h : AxisAligned c) :
    columns (s.corners id) = {rank (c 0).x, rank (c 1).x} ∧
      rows (s.corners id) = {rank (c 0).y, rank (c 2).y} ∧
      spot '' {p | p ∈ s.corners id} = ({rank (c 0).x, rank (c 1).x} : Set _) ×ˢ
        ({rank (c 0).y, rank (c 2).y} : Set _) := by
  obtain ⟨hlower, hright, hupper, hleft⟩ := (axisAligned_iff (hasCorners_isFinite hc)).mp h
  rw [corners_of_hasCorners hc]
  refine ⟨?_, ?_, ?_⟩
  · ext x
    simp [columns]
    grind
  · ext y
    simp [rows]
    grind
  · ext ⟨x, y⟩
    simp [spot]
    grind

/-- The box around corners along the axes has them for its own, and its ends are in order. -/
theorem around?_of_axisAligned (h : AxisAligned c) :
    ∃ p q, around? (s.corners id) = some (.rectangle p q) ∧
      SamePoints (List.ofFn c) (rectangleCorners p q) ∧ le p.x q.x = true ∧ le p.y q.y = true := by
  obtain ⟨hcolumns, hrows, hspots⟩ := spots_of_axisAligned hc h
  have hcorners := corners_of_hasCorners hc
  have hfinite : ∀ d ∈ s.corners id, d.isFinite = true := corners_isFinite
  obtain ⟨p, q, hbox, hp, hq, hleft, hright, hlower, hupper⟩ :=
    around?_eq_some hfinite (by rw [hcorners]; exact Nat.le_add_left 2 2)
  obtain ⟨hpx, hpy⟩ := Bool.and_eq_true_iff.mp hp
  obtain ⟨hqx, hqy⟩ := Bool.and_eq_true_iff.mp hq
  refine ⟨p, q, hbox, ?_, (le_iff_rank hpx hqx).mpr (hleft.2 hright.1),
    (le_iff_rank hpy hqy).mpr (hlower.2 hupper.1)⟩
  have hofFn : List.ofFn c = s.corners id := by
    rw [hcorners]
    simp
  have hpx := (pair_eq_iff_of_bounds hleft hright hcolumns.subset).mpr hcolumns
  have hpy := (pair_eq_iff_of_bounds hlower hupper hrows.subset).mpr hrows
  rw [hofFn, samePoints_iff hfinite (rectangleCorners_isFinite hp hq), hspots,
    spots_rectangleCorners, hpx, hpy]

end Solved

/-- **A solved rectangle along the axes is written back as itself.** The four constraints that keep
a rectangle along the axes ask just that its corners are along the axes. If they are, then whatever
the rectangle was before and in whatever order its columns and rows stand, what is written back has
exactly the solved corners, and its ends are in order along both axes. So a corner that was solved
to where it was is still a corner. -/
theorem aligned_rectangle_kept (id : Value) (a b : Point Float) :
    (∀ es g issued cs o, DistinctIds es → (⟨id, .rectangle a b⟩ : Element Float) ∈ es →
      Graph.ofElements es = .ok g →
      Implicit.axisConstraints issued [(⟨id, .rectangle a b⟩ : Element Float)] = .ok cs →
      ∃ sys, System.compile g.vertexVector g.edges g.ringVector cs o = .ok sys ∧
        ∀ x c, PlacesCorners g x id c → (∀ m, (c m).isFinite = true) →
          ((∀ r ∈ sys.residuals x (sys.modes x), (r == (zero : Float)) = true) ↔
            AxisAligned c)) ∧
    ∀ (s : Solved Float) (c : Fin 4 → Point Float), (∀ name ∈ s.names, name.isKey = true) →
      s.HasCorners id c → AxisAligned c →
      ∃ p q, s.Turns ⟨id, .rectangle a b⟩ ⟨id, .rectangle p q⟩ ∧
        SamePoints (List.ofFn c) (rectangleCorners p q) ∧
        le p.x q.x = true ∧ le p.y q.y = true ∧
        ∀ m, (rectangleCorners a b)[m.val]? = some (c m) →
          ∃ d ∈ rectangleCorners p q, (c m).agrees d = true := by
  refine ⟨fun es g issued cs o hes he hg hcs => axisConstraints_vanish_iff hes he hg hcs o,
    fun s c hkeys hc h => ?_⟩
  obtain ⟨p, q, hbox, hsame, hx, hy⟩ := Solved.around?_of_axisAligned hc h
  have helement : s.element ⟨id, .rectangle a b⟩ = .ok ⟨id, .rectangle p q⟩ := by
    rw [Solved.element_rectangle, hbox]
    rfl
  exact ⟨p, q, Solved.turns_of_element hkeys helement, hsame, hx, hy,
    fun m _ => hsame.forth (c m) (List.mem_ofFn.mpr ⟨m, rfl⟩)⟩

theorem build_point {n k : Nat} (f : Fin n → Point Float) (r : Fin k → Float) (i : Fin n) :
    (State.build f r).placement.point i = f i := by
  have heven : 2 * i.val < 2 * n := by omega
  have hodd : 2 * i.val + 1 < 2 * n := by omega
  have h1 : (2 * i.val + 1) / 2 = i.val := by omega
  have h2 : (2 * i.val + 1) % 2 = 1 := by omega
  simp only [State.placement, State.build, get_ofFn, dif_pos heven, dif_pos hodd]
  simp [h1, h2]

/-- A rectangle. -/
def plate : Element Float := ⟨.text "R", .rectangle ⟨0.0, 0.0⟩ ⟨30.0, 20.0⟩⟩

/-- Where its corners are after a solve that turned it over. -/
def turnedOver : Fin 4 → Point Float
  | 0 => ⟨40.0, 30.0⟩
  | 1 => ⟨0.0, 30.0⟩
  | 2 => ⟨0.0, 0.0⟩
  | 3 => ⟨40.0, 0.0⟩

/-- The corners of the rectangle as that solve returns them. -/
def turnedPlate : Solved Float where
  vertices := (List.finRange 4).map fun m =>
    { id := .text (vertexName (.text "R") .corner (some m.val)), x := (turnedOver m).x,
      y := (turnedOver m).y }
  rings := []

/-- The graph of the rectangle alone. -/
def plateGraph : Graph Float where
  vertices := (rectangleCorners ⟨0.0, 0.0⟩ ⟨30.0, 20.0⟩).mapIdx fun i p =>
    plate.vertex .corner (some i) p
  edges := plate.edges

/-- A state of the graph with the corners where that solve puts them. -/
def turnedState : State Float plateGraph.vertices.length plateGraph.rings.length :=
  State.build turnedOver nofun

theorem turnedState_placesCorners :
    PlacesCorners plateGraph turnedState (.text "R") turnedOver := by
  have hname : ∀ i : Fin 4, (plateGraph.vertexVector.get i).id =
      .text (vertexName (.text "R") .corner (some i.val)) := by
    intro i
    match i with
    | 0 | 1 | 2 | 3 => rfl
  intro i m h
  have hindex := (vertexName_injective (Value.text.inj ((hname i).symm.trans h))).2.2
  exact (build_point turnedOver _ i).trans
    (congrArg turnedOver (Fin.ext (Option.some.inj hindex)))

theorem aligned_rectangle_kept_turnedOver :
    (∃ cs sys, Implicit.axisConstraints 0 [plate] = .ok cs ∧
      System.compile plateGraph.vertexVector plateGraph.edges plateGraph.ringVector cs .standard =
        .ok sys ∧
      ∀ r ∈ sys.residuals turnedState (sys.modes turnedState), (r == (zero : Float)) = true) ∧
    ∃ p q, turnedPlate.elements [plate] = .ok [⟨.text "R", .rectangle p q⟩] ∧
      SamePoints (List.ofFn turnedOver) (rectangleCorners p q) := by
  have haligned : AxisAligned turnedOver := ⟨by decide +kernel, by decide +kernel,
    by decide +kernel, by decide +kernel⟩
  obtain ⟨hconstraints, hwritten⟩ := aligned_rectangle_kept (.text "R") ⟨0.0, 0.0⟩ ⟨30.0, 20.0⟩
  constructor
  · obtain ⟨sys, hsys, hvanish⟩ := hconstraints [plate] plateGraph 0 _ .standard
      ⟨by simp [plate], by simp⟩ (List.mem_singleton_self _) rfl rfl
    exact ⟨_, sys, rfl, hsys, (hvanish turnedState turnedOver turnedState_placesCorners
      (by decide +kernel)).mpr haligned⟩
  · obtain ⟨p, q, hturns, hsame, -⟩ := hwritten turnedPlate turnedOver (by decide +kernel)
      (by unfold Solved.HasCorners; decide +kernel) haligned
    exact ⟨p, q, hturns.alone, hsame⟩

end Drafting
