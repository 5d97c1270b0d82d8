import Drafting.Proofs.Failure
import Drafting.Proofs.Naming
import Drafting.WriteBack

/-!
What write-back keeps of an element. Whatever the solved points and circles are, an element that is
written back has its old identifier and its old outline: the kind of its shape, and for a spline the
number of its control points. The outline with the identifier decides which parts the element has
in the graph. Fields that were finite stay finite.
-/

namespace Drafting

/-- What of a shape decides which parts it has: its kind, and how many control points it has. -/
def Shape.outline {α : Type} : Shape α → Option ElementKind × Nat
  | spline points => (some .spline, points.length)
  | shape => (shape.kind?, 0)

/-- Two elements with one identifier and one outline. -/
structure Element.Alike {α : Type} (e e' : Element α) : Prop where
  id : e'.id = e.id
  outline : e'.shape.outline = e.shape.outline

theorem Shape.kind?_eq_of_outline {α : Type} {a b : Shape α} (h : a.outline = b.outline) :
    a.kind? = b.kind? := by
  cases a <;> cases b <;> simp_all [outline, kind?]

theorem Element.Alike.refl {α : Type} (e : Element α) : Element.Alike e e := ⟨rfl, rfl⟩

theorem Element.Alike.kind {α : Type} {e e' : Element α} (h : Element.Alike e e') :
    e'.shape.kind? = e.shape.kind? :=
  Shape.kind?_eq_of_outline h.outline

namespace Solved

open Scalar

variable {α : Type}

theorem vertex?_eq_some {s : Solved α} {name : String} {v : Vertex α}
    (h : s.vertex? (.text name) = some v) : v ∈ s.vertices ∧ v.id = .text name := by
  unfold vertex? at h
  have hid := List.find?_some h
  exact ⟨List.mem_reverse.mp (List.mem_of_find?_eq_some h), Value.beq_text_iff.mp hid⟩

theorem ring?_eq_some {s : Solved α} {name : String} {r : Ring α}
    (h : s.ring? (.text name) = some r) : r ∈ s.rings ∧ r.id = .text name := by
  unfold ring? at h
  have hid := List.find?_some h
  exact ⟨List.mem_reverse.mp (List.mem_of_find?_eq_some h), Value.beq_text_iff.mp hid⟩

theorem exists_vertex? {s : Solved α} {name : String} {v : Vertex α} (hv : v ∈ s.vertices)
    (hid : v.id = .text name) : ∃ w, s.vertex? (.text name) = some w :=
  Option.isSome_iff_exists.mp
    (List.find?_isSome.mpr ⟨v, List.mem_reverse.mpr hv, by simp [hid]⟩)

theorem exists_ring? {s : Solved α} {name : String} {r : Ring α} (hr : r ∈ s.rings)
    (hid : r.id = .text name) : ∃ w, s.ring? (.text name) = some w :=
  Option.isSome_iff_exists.mp
    (List.find?_isSome.mpr ⟨r, List.mem_reverse.mpr hr, by simp [hid]⟩)

theorem ring_eq_ok {s : Solved α} {id : Value} {r : Ring α} (h : s.ring id = .ok r) :
    r ∈ s.rings ∧ r.id = .text (ringName id) := by
  unfold ring at h
  dsimp only at h
  split at h
  · rename_i r hr
    cases h
    exact ring?_eq_some hr
  · cases h

variable [Scalar α]

theorem point_eq_ok {s : Solved α} {id : Value} {role : Role} {a p : Point α}
    (h : s.point id role a = .ok p) :
    ∃ v ∈ s.vertices, v.id = .text (vertexName id role none) ∧ p = position v a := by
  unfold point at h
  dsimp only at h
  split at h
  · rename_i v hv
    cases h
    exact ⟨v, (vertex?_eq_some hv).1, (vertex?_eq_some hv).2, rfl⟩
  · cases h

theorem around?_outline {ps : List (Point α)} {shape : Shape α} (h : around? ps = some shape) :
    shape.outline = (some .rectangle, 0) := by
  unfold around? at h
  split at h
  · cases h
    rfl
  · cases h

/-- What write-back makes of the shape of an element with an identifier, by kind: the new shape, or
none if the old one stays. -/
inductive Rewrites (s : Solved α) (id : Value) : Shape α → Option (Shape α) → Prop where
  | line {a b p q : Point α} (hp : s.point id .start a = .ok p) (hq : s.point id .stop b = .ok q) :
      Rewrites s id (.line a b) (some (.line p q))
  | hline {a p q : Point α} {length : α} (hp : s.point id .start a = .ok p)
      (hq : s.point id .stop (hlineEnd a length) = .ok q) :
      Rewrites s id (.hline a length) (some (.hline p (finiteOr (q.x - p.x) length)))
  | vline {a p q : Point α} {length : α} (hp : s.point id .start a = .ok p)
      (hq : s.point id .stop (vlineEnd a length) = .ok q) :
      Rewrites s id (.vline a length) (some (.vline p (finiteOr (q.y - p.y) length)))
  | rectangle {a b : Point α} : Rewrites s id (.rectangle a b) (around? (s.corners id))
  | circle {c : Point α} {radius : α} {r : Ring α} {center : Option (Vertex α)}
      (hr : s.ring id = .ok r) (hc : s.center? r = .ok center) :
      Rewrites s id (.circle c radius)
        (center.map fun v => .circle (position v c) (finiteOr r.radius radius))
  | arc {c start stop p q : Point α} {radius a b : α} {r : Ring α} {center : Option (Vertex α)}
      (hr : s.ring id = .ok r) (hstart : pointAtAngle c radius a = .ok start)
      (hp : s.point id .start start = .ok p) (hstop : pointAtAngle c radius b = .ok stop)
      (hq : s.point id .stop stop = .ok q) (hc : s.center? r = .ok center) :
      Rewrites s id (.arc c radius a b)
        (center.map fun v =>
          .arc (position v c) (finiteOr r.radius radius)
            (finiteOr (atan2 (p.y - (position v c).y) (p.x - (position v c).x)) a)
            (finiteOr (atan2 (q.y - (position v c).y) (q.x - (position v c).x)) b))
  | spline {points : List (Point α)} :
      Rewrites s id (.spline points) (some (.spline (points.mapIdx fun i p =>
        match s.vertex? (.text (vertexName id .control (some i))) with
        | some v => position v p
        | none => p)))
  | foreign : Rewrites s id .foreign none

theorem shape?_rewrites {s : Solved α} {e : Element α} {shape : Option (Shape α)}
    (h : s.shape? e = .ok shape) : Rewrites s e.id e.shape shape := by
  unfold shape? at h
  split at h
  · rename_i he
    obtain ⟨p, hp, h⟩ := bind_eq_ok.mp h
    obtain ⟨q, hq, h⟩ := bind_eq_ok.mp h
    cases h
    exact he ▸ .line hp hq
  · rename_i he
    obtain ⟨p, hp, h⟩ := bind_eq_ok.mp h
    obtain ⟨q, hq, h⟩ := bind_eq_ok.mp h
    cases h
    exact he ▸ .hline hp hq
  · rename_i he
    obtain ⟨p, hp, h⟩ := bind_eq_ok.mp h
    obtain ⟨q, hq, h⟩ := bind_eq_ok.mp h
    cases h
    exact he ▸ .vline hp hq
  · rename_i he
    cases h
    exact he ▸ .rectangle
  · rename_i he
    obtain ⟨r, hr, h⟩ := bind_eq_ok.mp h
    obtain ⟨center, hc, h⟩ := bind_eq_ok.mp h
    cases h
    exact he ▸ .circle hr hc
  · rename_i he
    obtain ⟨r, hr, h⟩ := bind_eq_ok.mp h
    obtain ⟨start, hstart, h⟩ := bind_eq_ok.mp h
    obtain ⟨p, hp, h⟩ := bind_eq_ok.mp h
    obtain ⟨stop, hstop, h⟩ := bind_eq_ok.mp h
    obtain ⟨q, hq, h⟩ := bind_eq_ok.mp h
    obtain ⟨center, hc, h⟩ := bind_eq_ok.mp h
    cases h
    exact he ▸ .arc hr hstart hp hstop hq hc
  · rename_i he
    cases h
    exact he ▸ .spline
  · rename_i he
    cases h
    exact he ▸ .foreign

theorem Rewrites.outline {s : Solved α} {id : Value} {old : Shape α} {new : Option (Shape α)}
    (h : Rewrites s id old new) : (new.getD old).outline = old.outline := by
  cases h with
  | line | hline | vline | foreign => rfl
  | rectangle =>
    cases hbox : around? (s.corners id) with
    | none => rfl -- too few corners are known, and the old rectangle stays
    | some box => exact around?_outline hbox
  | @circle c radius r center => cases center <;> rfl
  | @arc c start stop p q radius a b r center => cases center <;> rfl
  | spline => simp [Shape.outline]

/-- An element that was written back has the shape that its rewriting says. -/
theorem element_eq_ok {s : Solved α} {e e' : Element α} (h : s.element e = .ok e') :
    ∃ new, Rewrites s e.id e.shape new ∧ e' = { e with shape := new.getD e.shape } := by
  obtain ⟨new, hnew, h⟩ := bind_eq_ok.mp h
  cases h
  exact ⟨new, shape?_rewrites hnew, rfl⟩

/-- Elements that were written back are the old ones in their order, each with the shape that its
rewriting says. -/
theorem elements_eq_ok {s : Solved α} {es es' : List (Element α)} (h : s.elements es = .ok es') :
    List.Forall₂ (fun e e' => ∃ new, Rewrites s e.id e.shape new ∧
      e' = { e with shape := new.getD e.shape }) es es' := by
  -- that all names of vertices are keys is checked first and leaves nothing behind
  obtain ⟨_, _, h⟩ := bind_eq_ok.mp h
  exact (mapM_eq_ok.mp h).imp fun _ _ => element_eq_ok

/-- An element that was written back has its identifier and its outline. -/
theorem element_alike {s : Solved α} {e e' : Element α} (h : s.element e = .ok e') :
    Element.Alike e e' := by
  obtain ⟨new, hnew, rfl⟩ := element_eq_ok h
  exact ⟨rfl, hnew.outline⟩

/-- The elements that are written back are the old ones in their order, each with its identifier
and its outline. -/
theorem elements_alike {s : Solved α} {es es' : List (Element α)} (h : s.elements es = .ok es') :
    List.Forall₂ Element.Alike es es' := by
  obtain ⟨_, _, h⟩ := bind_eq_ok.mp h
  exact (mapM_eq_ok.mp h).imp fun _ _ => element_alike

end Solved

/-! ## Finite fields -/

section Finite

open Scalar

variable {α : Type} [Scalar α]

/-- Whether both coordinates of a point are finite. -/
def Point.isFinite (p : Point α) : Bool := Scalar.isFinite p.x && Scalar.isFinite p.y

/-- Whether all fields of a shape are finite. -/
def Shape.isFinite : Shape α → Bool
  | line start stop | rectangle start stop => start.isFinite && stop.isFinite
  | hline start length | vline start length => start.isFinite && Scalar.isFinite length
  | circle center radius => center.isFinite && Scalar.isFinite radius
  | arc center radius a b =>
    center.isFinite && Scalar.isFinite radius && Scalar.isFinite a && Scalar.isFinite b
  | spline points => points.all Point.isFinite
  | foreign => true

theorem finiteOr_isFinite {a b : α} (hb : Scalar.isFinite b = true) :
    Scalar.isFinite (finiteOr a b) = true := by
  unfold finiteOr
  split
  · assumption
  · exact hb

namespace Solved

theorem position_isFinite {v : Vertex α} {p : Point α} (hp : p.isFinite = true) :
    (position v p).isFinite = true := by
  obtain ⟨hx, hy⟩ := Bool.and_eq_true_iff.mp hp
  exact Bool.and_eq_true_iff.mpr ⟨finiteOr_isFinite hx, finiteOr_isFinite hy⟩

theorem point_isFinite {s : Solved α} {id : Value} {role : Role} {a p : Point α}
    (h : s.point id role a = .ok p) (ha : a.isFinite = true) : p.isFinite = true := by
  obtain ⟨v, _, _, rfl⟩ := point_eq_ok h
  exact position_isFinite ha

/-- A number that is chosen from a list step by step is one of the list. -/
theorem foldl_choice_mem {β : Type} {choose : β → β → β}
    (hchoose : ∀ a b, choose a b = a ∨ choose a b = b) (a : β) (rest : List β) :
    rest.foldl choose a ∈ a :: rest := by
  induction rest generalizing a with
  | nil => simp
  | cons b rest ih =>
    rw [List.foldl_cons]
    rcases List.mem_cons.mp (ih (choose a b)) with h | h
    · rw [h]
      rcases hchoose a b with hab | hab <;> simp [hab]
    · simp [h]

theorem least_mem (a : α) (rest : List α) : least a rest ∈ a :: rest := by
  refine foldl_choice_mem (fun a b => ?_) a rest
  unfold smaller
  split
  · exact .inr rfl
  · exact .inl rfl

theorem greatest_mem (a : α) (rest : List α) : greatest a rest ∈ a :: rest := by
  refine foldl_choice_mem (fun a b => ?_) a rest
  unfold larger
  split
  · exact .inr rfl
  · exact .inl rfl

theorem corners_isFinite {s : Solved α} {id : Value} : ∀ p ∈ s.corners id, p.isFinite = true := by
  intro p hp
  obtain ⟨i, _, hp⟩ := List.mem_filterMap.mp hp
  split at hp
  · split at hp
    · rename_i hfinite
      cases hp
      exact hfinite
    · cases hp
  · cases hp

theorem around?_isFinite {ps : List (Point α)} (hps : ∀ p ∈ ps, p.isFinite = true)
    {shape : Shape α} (h : around? ps = some shape) : shape.isFinite = true := by
  unfold around? at h
  split at h
  · -- every side of the box is at a coordinate of one of the points
    rename_i p q rest
    cases h
    have hx : ∀ x ∈ p.x :: (q :: rest).map (·.x), Scalar.isFinite x = true := by
      intro x hx
      rw [← List.map_cons (f := fun r : Point α => r.x)] at hx
      obtain ⟨r, hr, rfl⟩ := List.mem_map.mp hx
      exact (Bool.and_eq_true_iff.mp (hps r hr)).1
    have hy : ∀ y ∈ p.y :: (q :: rest).map (·.y), Scalar.isFinite y = true := by
      intro y hy
      rw [← List.map_cons (f := fun r : Point α => r.y)] at hy
      obtain ⟨r, hr, rfl⟩ := List.mem_map.mp hy
      exact (Bool.and_eq_true_iff.mp (hps r hr)).2
    simp only [Shape.isFinite, Point.isFinite, Bool.and_eq_true]
    exact ⟨⟨hx _ (least_mem _ _), hy _ (least_mem _ _)⟩,
      hx _ (greatest_mem _ _), hy _ (greatest_mem _ _)⟩
  · cases h

/-- Write-back leaves finite fields finite, whatever was solved. -/
theorem Rewrites.isFinite {s : Solved α} {id : Value} {old : Shape α} {new : Option (Shape α)}
    (h : s.Rewrites id old new) (hold : old.isFinite = true) :
    (new.getD old).isFinite = true := by
  cases h with
  | line hp hq =>
    obtain ⟨ha, hb⟩ := Bool.and_eq_true_iff.mp hold
    exact Bool.and_eq_true_iff.mpr ⟨point_isFinite hp ha, point_isFinite hq hb⟩
  | hline hp hq =>
    obtain ⟨ha, hb⟩ := Bool.and_eq_true_iff.mp hold
    exact Bool.and_eq_true_iff.mpr ⟨point_isFinite hp ha, finiteOr_isFinite hb⟩
  | vline hp hq =>
    obtain ⟨ha, hb⟩ := Bool.and_eq_true_iff.mp hold
    exact Bool.and_eq_true_iff.mpr ⟨point_isFinite hp ha, finiteOr_isFinite hb⟩
  | rectangle =>
    cases hbox : around? (s.corners id) with
    | none => exact hold
    | some box => exact around?_isFinite corners_isFinite hbox
  | @circle c radius r center hr hc =>
    obtain ⟨hcenter, hradius⟩ := Bool.and_eq_true_iff.mp hold
    cases center with
    | none => exact hold
    | some v =>
      exact Bool.and_eq_true_iff.mpr ⟨position_isFinite hcenter, finiteOr_isFinite hradius⟩
  | @arc c start stop p q radius a b r center =>
    cases center with
    | none => exact hold
    | some v =>
      simp only [Shape.isFinite, Bool.and_eq_true] at hold
      obtain ⟨⟨⟨hcenter, hradius⟩, ha⟩, hb⟩ := hold
      simp only [Option.map_some, Option.getD_some, Shape.isFinite, Bool.and_eq_true]
      exact ⟨⟨⟨position_isFinite hcenter, finiteOr_isFinite hradius⟩, finiteOr_isFinite ha⟩,
        finiteOr_isFinite hb⟩
  | @spline points =>
    simp only [Shape.isFinite, Option.getD_some, List.all_eq_true] at hold ⊢
    intro p hp
    obtain ⟨i, hi, rfl⟩ := List.mem_mapIdx.mp hp
    have hold := hold points[i] (List.getElem_mem hi)
    split
    · exact position_isFinite hold
    · exact hold
  | foreign => rfl

end Solved

end Finite

end Drafting
