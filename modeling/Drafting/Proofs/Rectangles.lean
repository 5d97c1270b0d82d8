import Mathlib.Data.List.Sublists
import Mathlib.Data.Set.Prod
import Mathlib.Order.Bounds.Basic
import Drafting.Proofs.Ordering
import Drafting.Proofs.PartNames
import Drafting.Proofs.References

/-!
Rectangles that are written back. A rectangle becomes the box around those of its corners that were
solved and are finite, if there are two of them. Along each axis the box goes from the least to the
greatest coordinate, so that it has the corners of the rectangle if both of its coordinates are
among those that are left.

Four corners that are solved along the axes are the corners of the box, in whatever order their
coordinates stand. Of corners that stay where they were, three are enough for the rectangle to stay
as well, and two across the diagonal; but the two ends of one side make a box without the extent
across that side.
-/

namespace Drafting

open Scalar

/-! ## Points up to equal coordinates -/

/-- Where a point stands along each axis. -/
def spot (p : Point Float) : (ℤ ×ₗ ℤ ×ₗ ℤ) × (ℤ ×ₗ ℤ ×ₗ ℤ) := (rank p.x, rank p.y)

/-- Two lists of points with the same positions. -/
structure SamePoints (ps qs : List (Point Float)) : Prop where
  forth : ∀ p ∈ ps, ∃ q ∈ qs, p.agrees q = true
  back : ∀ q ∈ qs, ∃ p ∈ ps, p.agrees q = true

theorem agrees_iff_spot {p q : Point Float} (hp : p.isFinite = true) (hq : q.isFinite = true) :
    p.agrees q = true ↔ spot p = spot q := by
  obtain ⟨hpx, hpy⟩ := Bool.and_eq_true_iff.mp hp
  obtain ⟨hqx, hqy⟩ := Bool.and_eq_true_iff.mp hq
  rw [Point.agrees, Bool.and_eq_true, beq_iff_rank hpx hqx, beq_iff_rank hpy hqy]
  exact Prod.mk_inj.symm

theorem samePoints_iff {ps qs : List (Point Float)} (hps : ∀ p ∈ ps, p.isFinite = true)
    (hqs : ∀ q ∈ qs, q.isFinite = true) :
    SamePoints ps qs ↔ spot '' {p | p ∈ ps} = spot '' {q | q ∈ qs} := by
  constructor
  · intro h
    refine Set.Subset.antisymm ?_ ?_
    · rintro _ ⟨p, hp, rfl⟩
      obtain ⟨q, hq, hpq⟩ := h.forth p hp
      exact ⟨q, hq, ((agrees_iff_spot (hps p hp) (hqs q hq)).mp hpq).symm⟩
    · rintro _ ⟨q, hq, rfl⟩
      obtain ⟨p, hp, hpq⟩ := h.back q hq
      exact ⟨p, hp, (agrees_iff_spot (hps p hp) (hqs q hq)).mp hpq⟩
  · intro h
    refine ⟨fun p hp => ?_, fun q hq => ?_⟩
    · obtain ⟨q, hq, hqp⟩ := h.subset ⟨p, hp, rfl⟩
      exact ⟨q, hq, (agrees_iff_spot (hps p hp) (hqs q hq)).mpr hqp.symm⟩
    · obtain ⟨p, hp, hpq⟩ := h.superset ⟨q, hq, rfl⟩
      exact ⟨p, hp, (agrees_iff_spot (hps p hp) (hqs q hq)).mpr hpq⟩

/-- The corners of a rectangle are where one of its columns meets one of its rows. -/
theorem spots_rectangleCorners (a b : Point Float) :
    spot '' {c | c ∈ rectangleCorners a b} =
      ({rank a.x, rank b.x} : Set _) ×ˢ ({rank a.y, rank b.y} : Set _) := by
  ext ⟨x, y⟩
  simp only [rectangleCorners, spot, Set.mem_image, Set.mem_ofPred_eq, List.mem_cons,
    List.not_mem_nil, or_false, exists_eq_or_imp, exists_eq_left, Set.mem_prod, Set.mem_insert_iff,
    Set.mem_singleton_iff, Prod.mk_inj]
  grind

/-- Two rectangles of one size with the same corners. -/
structure SameRectangle (a b p q : Point Float) : Prop where
  width : rectangleWidth p q = rectangleWidth a b
  height : rectangleHeight p q = rectangleHeight a b
  corners : SamePoints (rectangleCorners p q) (rectangleCorners a b)

theorem rectangleCorners_isFinite {a b : Point Float} (ha : a.isFinite = true)
    (hb : b.isFinite = true) : ∀ c ∈ rectangleCorners a b, c.isFinite = true := by
  obtain ⟨hax, hay⟩ := Bool.and_eq_true_iff.mp ha
  obtain ⟨hbx, hby⟩ := Bool.and_eq_true_iff.mp hb
  simp [rectangleCorners, Point.isFinite, hax, hay, hbx, hby]

/-- The distance of two numbers, up to the sign of a zero and in either order. -/
theorem abs_sub_eq_of_pair_eq {x y z w : Float} (hx : Scalar.isFinite x = true)
    (hy : Scalar.isFinite y = true) (hz : Scalar.isFinite z = true) (hw : Scalar.isFinite w = true)
    (h : ({rank x, rank y} : Set _) = {rank z, rank w}) :
    Scalar.abs (y - x) = Scalar.abs (w - z) := by
  have hsize : ∀ {x' y' : Float}, (x == x') = true → (y == y') = true →
      SameSize (y - x) (y' - x') := fun {x' y'} hxx hyy =>
    ((SameSize.sub_of_beq hxx y).trans (SameSize.sub_swap y x')).trans
      ((SameSize.sub_of_beq hyy x').trans (SameSize.sub_swap x' y'))
  obtain ⟨h1, h2⟩ | ⟨h1, h2⟩ := Set.pair_eq_pair_iff.mp h
  · exact (hsize ((beq_iff_rank hx hz).mpr h1) ((beq_iff_rank hy hw).mpr h2)).abs_eq
  · exact ((hsize ((beq_iff_rank hx hw).mpr h1) ((beq_iff_rank hy hz).mpr h2)).trans
      (SameSize.sub_swap z w)).abs_eq

theorem abs_sub_eq_zero {x y : Float} (hx : Scalar.isFinite x = true)
    (hy : Scalar.isFinite y = true) (h : rank x = rank y) : Scalar.abs (y - x) = zero := by
  rw [abs_sub_eq_of_pair_eq hx hy hx hx (by rw [h]), float_sub_self hx]
  rfl

/-- Rectangles are the same if they have the same columns and the same rows. -/
theorem sameRectangle_iff {a b p q : Point Float} (ha : a.isFinite = true) (hb : b.isFinite = true)
    (hp : p.isFinite = true) (hq : q.isFinite = true) :
    SameRectangle a b p q ↔ ({rank p.x, rank q.x} : Set _) = {rank a.x, rank b.x} ∧
      ({rank p.y, rank q.y} : Set _) = {rank a.y, rank b.y} := by
  have hcorners : SamePoints (rectangleCorners p q) (rectangleCorners a b) ↔
      ({rank p.x, rank q.x} : Set _) = {rank a.x, rank b.x} ∧
        ({rank p.y, rank q.y} : Set _) = {rank a.y, rank b.y} := by
    rw [samePoints_iff (rectangleCorners_isFinite hp hq) (rectangleCorners_isFinite ha hb),
      spots_rectangleCorners, spots_rectangleCorners]
    exact Set.prod_eq_prod_iff_of_nonempty
      (Set.Nonempty.prod (Set.insert_nonempty _ _) (Set.insert_nonempty _ _))
  obtain ⟨hax, hay⟩ := Bool.and_eq_true_iff.mp ha
  obtain ⟨hbx, hby⟩ := Bool.and_eq_true_iff.mp hb
  obtain ⟨hpx, hpy⟩ := Bool.and_eq_true_iff.mp hp
  obtain ⟨hqx, hqy⟩ := Bool.and_eq_true_iff.mp hq
  constructor
  · exact fun h => hcorners.mp h.corners
  · intro h
    exact ⟨abs_sub_eq_of_pair_eq hpx hqx hax hbx h.1, abs_sub_eq_of_pair_eq hpy hqy hay hby h.2,
      hcorners.mpr h⟩

/-! ## The box around some points -/

namespace Solved

/-- What is chosen from a list step by step is related to all of the list, if each step chooses what
is related to both of its numbers. -/
theorem foldl_choice_rel {β : Type} {choose : β → β → β} {good : β → Prop} {R : β → β → Prop}
    (hrefl : ∀ a, R a a) (htrans : ∀ a b c, R a b → R b c → R a c)
    (hchoose : ∀ a b, good a → good b → good (choose a b) ∧ R (choose a b) a ∧ R (choose a b) b)
    {a : β} {rest : List β} (hgood : ∀ x ∈ a :: rest, good x) :
    ∀ x ∈ a :: rest, R (rest.foldl choose a) x := by
  induction rest generalizing a with
  | nil =>
    intro x hx
    rw [List.mem_singleton.mp hx]
    exact hrefl a
  | cons b rest ih =>
    obtain ⟨hchosen, ha, hb⟩ := hchoose a b (hgood a (by simp)) (hgood b (by simp))
    have hrest : ∀ x ∈ choose a b :: rest, R (rest.foldl choose (choose a b)) x := by
      refine ih fun x hx => ?_
      rcases List.mem_cons.mp hx with rfl | hx
      · exact hchosen
      · exact hgood x (by simp [hx])
    intro x hx
    rcases List.mem_cons.mp hx with rfl | hx
    · exact htrans _ _ _ (hrest _ List.mem_cons_self) ha
    · rcases List.mem_cons.mp hx with rfl | hx
      · exact htrans _ _ _ (hrest _ List.mem_cons_self) hb
      · exact hrest x (List.mem_cons_of_mem _ hx)

section Bounds

variable {a : Float} {rest : List Float} (h : ∀ x ∈ a :: rest, Scalar.isFinite x = true)
include h

theorem isLeast_least : IsLeast (rank '' {x | x ∈ a :: rest}) (rank (least a rest)) := by
  refine ⟨⟨_, least_mem a rest, rfl⟩, ?_⟩
  rintro _ ⟨x, hx, rfl⟩
  refine foldl_choice_rel (R := fun b c => rank b ≤ rank c) (fun _ => le_refl _)
    (fun _ _ _ => le_trans) (fun b c hb hc => ?_) h x hx
  rw [rank_smaller hb hc]
  exact ⟨by unfold smaller; split <;> assumption, min_le_left _ _, min_le_right _ _⟩

theorem isGreatest_greatest :
    IsGreatest (rank '' {x | x ∈ a :: rest}) (rank (greatest a rest)) := by
  refine ⟨⟨_, greatest_mem a rest, rfl⟩, ?_⟩
  rintro _ ⟨x, hx, rfl⟩
  refine foldl_choice_rel (R := fun b c => rank c ≤ rank b) (fun _ => le_refl _)
    (fun _ _ _ hab hbc => le_trans hbc hab) (fun b c hb hc => ?_) h x hx
  rw [rank_larger hb hc]
  exact ⟨by unfold larger; split <;> assumption, le_max_left _ _, le_max_right _ _⟩

end Bounds

/-- Where some points stand along the first axis. -/
def columns (ps : List (Point Float)) : Set (ℤ ×ₗ ℤ ×ₗ ℤ) := (fun c => rank c.x) '' {c | c ∈ ps}

/-- Where some points stand along the second axis. -/
def rows (ps : List (Point Float)) : Set (ℤ ×ₗ ℤ ×ₗ ℤ) := (fun c => rank c.y) '' {c | c ∈ ps}

/-- The rectangle from `p` to `q` reaches from the first to the last of some points along each
axis. -/
structure Around (ps : List (Point Float)) (p q : Point Float) : Prop where
  start : p.isFinite = true
  stop : q.isFinite = true
  left : IsLeast (columns ps) (rank p.x)
  right : IsGreatest (columns ps) (rank q.x)
  lower : IsLeast (rows ps) (rank p.y)
  upper : IsGreatest (rows ps) (rank q.y)

theorem around?_eq_some {ps : List (Point Float)} (hps : ∀ p ∈ ps, p.isFinite = true)
    (h : 2 ≤ ps.length) : ∃ p q, around? ps = some (.rectangle p q) ∧ Around ps p q := by
  obtain ⟨c, d, rest, rfl⟩ : ∃ c d rest, ps = c :: d :: rest := by
    match ps, h with
    | c :: d :: rest, _ => exact ⟨c, d, rest, rfl⟩
  have hx : ∀ x ∈ c.x :: (d :: rest).map (·.x), Scalar.isFinite x = true := by
    rw [← List.map_cons (f := fun p : Point Float => p.x), List.forall_mem_map]
    exact fun p hp => (Bool.and_eq_true_iff.mp (hps p hp)).1
  have hy : ∀ y ∈ c.y :: (d :: rest).map (·.y), Scalar.isFinite y = true := by
    rw [← List.map_cons (f := fun p : Point Float => p.y), List.forall_mem_map]
    exact fun p hp => (Bool.and_eq_true_iff.mp (hps p hp)).2
  have hcolumns : columns (c :: d :: rest) = rank '' {x | x ∈ c.x :: (d :: rest).map (·.x)} := by
    rw [← List.map_cons (f := fun p : Point Float => p.x)]
    ext r
    simp [columns]
  have hrows : rows (c :: d :: rest) = rank '' {y | y ∈ c.y :: (d :: rest).map (·.y)} := by
    rw [← List.map_cons (f := fun p : Point Float => p.y)]
    ext r
    simp [rows]
  have hbox : ∀ p q, around? (c :: d :: rest) = some (.rectangle p q) →
      p.isFinite = true ∧ q.isFinite = true := fun _ _ h =>
    Bool.and_eq_true_iff.mp (around?_isFinite hps h)
  obtain ⟨hp, hq⟩ := hbox _ _ rfl
  refine ⟨_, _, rfl, hp, hq, ?_, ?_, ?_, ?_⟩
  · exact hcolumns ▸ isLeast_least hx
  · exact hcolumns ▸ isGreatest_greatest hx
  · exact hrows ▸ isLeast_least hy
  · exact hrows ▸ isGreatest_greatest hy

theorem around?_eq_none {α : Type} [Scalar α] {ps : List (Point α)} (h : ps.length < 2) :
    around? ps = none := by
  match ps, h with
  | [], _ | [_], _ => rfl

/-- Of numbers that are all one of two, the least and the greatest are these two if both occur. -/
theorem pair_eq_iff_of_bounds {γ : Type} [LinearOrder γ] {S : Set γ} {l g x y : γ}
    (hl : IsLeast S l) (hg : IsGreatest S g) (hS : S ⊆ {x, y}) :
    ({l, g} : Set γ) = {x, y} ↔ S = {x, y} := by
  constructor
  · intro h
    refine hS.antisymm ?_
    rw [← h]
    exact Set.pair_subset hl.1 hg.1
  · rintro rfl
    have hlx : l ≤ x := hl.2 (Set.mem_insert _ _)
    have hly : l ≤ y := hl.2 (Set.mem_insert_of_mem _ rfl)
    have hxg : x ≤ g := hg.2 (Set.mem_insert _ _)
    have hyg : y ≤ g := hg.2 (Set.mem_insert_of_mem _ rfl)
    rcases hl.1 with rfl | rfl <;> rcases hg.1 with rfl | rfl
    · rw [le_antisymm hyg hly]
    · rfl
    · exact Set.pair_comm _ _
    · rw [le_antisymm hxg hlx]

/-! ## The corners that are left -/

section Corners

variable {α : Type} [Scalar α]

/-- A solved corner of a rectangle, if it is there and finite. -/
def corner? (s : Solved α) (id : Value) (i : Nat) : Option (Point α) :=
  match s.vertex? (.text (vertexName id .corner (some i))) with
  | some v => if Scalar.isFinite v.x && Scalar.isFinite v.y then some ⟨v.x, v.y⟩ else none
  | none => none

/-- The numbers of the corners that were solved and are finite. -/
def knownCorners (s : Solved α) (id : Value) : List Nat :=
  (List.range 4).filter fun i => (s.corner? id i).isSome

variable {s : Solved α} {id : Value}

theorem corners_eq : s.corners id = (List.range 4).filterMap (s.corner? id) := rfl

theorem length_corners : (s.corners id).length = (s.knownCorners id).length := by
  rw [corners_eq, List.length_filterMap_eq_countP, List.countP_eq_length_filter]
  rfl

theorem mem_corners {p : Point α} :
    p ∈ s.corners id ↔ ∃ i ∈ s.knownCorners id, s.corner? id i = some p := by
  rw [corners_eq, List.mem_filterMap]
  refine exists_congr fun i => ?_
  rw [knownCorners, List.mem_filter]
  refine ⟨fun h => ⟨⟨h.1, ?_⟩, h.2⟩, fun h => ⟨h.1.1, h.2⟩⟩
  rw [h.2]
  rfl

end Corners

/-- Each corner of a rectangle from `a` to `b` is missing, not finite, or where it was. -/
def LeavesCorners (s : Solved Float) (id : Value) (a b : Point Float) : Prop :=
  ∀ i < 4, ∀ p ∈ s.corner? id i, ∃ c ∈ (rectangleCorners a b)[i]?, p.agrees c = true

/-- The corners at the first column of a rectangle. -/
def leftCorners : List Nat := [0, 3]

/-- The corners at the first row of a rectangle. -/
def lowerCorners : List Nat := [0, 1]

/-- The ends of the two sides of a rectangle along the second axis. -/
def plumbSides : List (List Nat) := [[0, 3], [1, 2]]

/-- The ends of the two sides of a rectangle along the first axis. -/
def levelSides : List (List Nat) := [[0, 1], [2, 3]]

/-- Two corners or more are on both columns unless they are the ends of one side. -/
theorem both_columns_iff : ∀ known ∈ (List.range 4).sublists, 2 ≤ known.length →
    (((∃ i ∈ known, i ∈ leftCorners) ∧ ∃ i ∈ known, i ∉ leftCorners) ↔ known ∉ plumbSides) := by
  decide

theorem both_rows_iff : ∀ known ∈ (List.range 4).sublists, 2 ≤ known.length →
    (((∃ i ∈ known, i ∈ lowerCorners) ∧ ∃ i ∈ known, i ∉ lowerCorners) ↔ known ∉ levelSides) := by
  decide

theorem one_row_of_level : ∀ known ∈ levelSides, ∀ i ∈ known, ∀ j ∈ known,
    (i ∈ lowerCorners ↔ j ∈ lowerCorners) := by
  decide

theorem one_column_of_plumb : ∀ known ∈ plumbSides, ∀ i ∈ known, ∀ j ∈ known,
    (i ∈ leftCorners ↔ j ∈ leftCorners) := by
  decide

theorem not_plumb_of_level : ∀ known ∈ levelSides, known ∉ plumbSides := by
  decide

theorem length_of_side : ∀ known ∈ levelSides ++ plumbSides, known.length = 2 := by
  decide

theorem knownCorners_mem_sublists {α : Type} [Scalar α] (s : Solved α) (id : Value) :
    s.knownCorners id ∈ (List.range 4).sublists :=
  List.mem_sublists.mpr List.filter_sublist

theorem getElem?_rectangleCorners (a b : Point Float) {i : Nat} (h : i < 4) :
    (rectangleCorners a b)[i]? = some
      ⟨if i ∈ leftCorners then a.x else b.x, if i ∈ lowerCorners then a.y else b.y⟩ := by
  match i, h with
  | 0, _ | 1, _ | 2, _ | 3, _ => rfl

/-- What a list of corners shows of two numbers, one of which belongs to some of the corners and the
other to the others. -/
theorem image_ite_eq_pair {γ : Type} {x y : γ} {known some : List Nat} (h : known ≠ []) :
    (fun i => if i ∈ some then x else y) '' {i | i ∈ known} = ({x, y} : Set γ) ↔
      x = y ∨ ((∃ i ∈ known, i ∈ some) ∧ ∃ i ∈ known, i ∉ some) := by
  constructor
  · intro himage
    by_cases hxy : x = y
    · exact .inl hxy
    · right
      obtain ⟨i, hi, hix⟩ := himage.superset (Set.mem_insert x _)
      obtain ⟨j, hj, hjy⟩ := himage.superset (Set.mem_insert_of_mem x (rfl : y = y))
      refine ⟨⟨i, hi, by_contra fun hsome => ?_⟩, j, hj, fun hsome => ?_⟩
      · exact hxy ((if_neg hsome).symm.trans hix).symm
      · exact hxy ((if_pos hsome).symm.trans hjy)
  · intro hboth
    refine Set.Subset.antisymm ?_ ?_
    · rintro _ ⟨i, -, rfl⟩
      by_cases hi : i ∈ some
      · exact .inl (if_pos hi)
      · exact .inr (if_neg hi)
    · rcases hboth with rfl | ⟨⟨i, hi, hisome⟩, j, hj, hjsome⟩
      · obtain ⟨i, hi⟩ := List.exists_mem_of_ne_nil known h
        rw [Set.pair_eq_singleton, Set.singleton_subset_iff]
        exact ⟨i, hi, ite_self _⟩
      · exact Set.pair_subset ⟨i, hi, if_pos hisome⟩ ⟨j, hj, if_neg hjsome⟩

/-- The coordinates that a box takes from some corners are those of the rectangle if the corners
show both. -/
theorem pair_eq_iff_shown {γ : Type} [LinearOrder γ] {x y l g : γ} {known some : List Nat}
    (h : known ≠ []) {S : Set γ}
    (hS : S = (fun i => if i ∈ some then x else y) '' {i | i ∈ known}) (hl : IsLeast S l)
    (hg : IsGreatest S g) : ({l, g} : Set γ) = {x, y} ↔
      x = y ∨ ((∃ i ∈ known, i ∈ some) ∧ ∃ i ∈ known, i ∉ some) := by
  have hsubset : S ⊆ {x, y} := by
    rw [hS]
    rintro _ ⟨i, -, rfl⟩
    by_cases hi : i ∈ some
    · exact .inl (if_pos hi)
    · exact .inr (if_neg hi)
  rw [pair_eq_iff_of_bounds hl hg hsubset, hS, image_ite_eq_pair h]

/-- The box has no extent if all the corners show one coordinate. -/
theorem bounds_eq_of_shown {γ : Type} [LinearOrder γ] {x y l g : γ} {known some : List Nat}
    {S : Set γ} (hS : S = (fun i => if i ∈ some then x else y) '' {i | i ∈ known})
    (hl : IsLeast S l) (hg : IsGreatest S g)
    (hsame : ∀ i ∈ known, ∀ j ∈ known, (i ∈ some ↔ j ∈ some)) : l = g := by
  obtain ⟨i, hi, hil⟩ : l ∈ (fun i => if i ∈ some then x else y) '' {i | i ∈ known} := hS ▸ hl.1
  obtain ⟨j, hj, hjg⟩ : g ∈ (fun i => if i ∈ some then x else y) '' {i | i ∈ known} := hS ▸ hg.1
  rw [← hil, ← hjg]
  dsimp only
  rw [if_congr (hsame i hi j hj) rfl rfl]

theorem image_corners {α γ : Type} [Scalar α] {s : Solved α} {id : Value} {f : Point α → γ}
    {g : Nat → γ} (h : ∀ i ∈ s.knownCorners id, ∀ p, s.corner? id i = some p → f p = g i) :
    f '' {p | p ∈ s.corners id} = g '' {i | i ∈ s.knownCorners id} := by
  refine Set.Subset.antisymm ?_ ?_
  · rintro _ ⟨p, hp, rfl⟩
    obtain ⟨i, hi, hcorner⟩ := mem_corners.mp hp
    exact ⟨i, hi, (h i hi p hcorner).symm⟩
  · rintro _ ⟨i, hi, rfl⟩
    obtain ⟨p, hp⟩ := Option.isSome_iff_exists.mp (List.mem_filter.mp hi).2
    exact ⟨p, mem_corners.mpr ⟨i, hi, hp⟩, h i hi p hp⟩

section Left

variable {s : Solved Float} {id : Value} {a b : Point Float} (ha : a.isFinite = true)
  (hb : b.isFinite = true) (h : s.LeavesCorners id a b)
include ha hb h

/-- A corner that is left stands at a column and a row of the rectangle. -/
theorem spot_of_leavesCorners {i : Nat} (hi : i ∈ s.knownCorners id) {p : Point Float}
    (hp : s.corner? id i = some p) :
    spot p = (if i ∈ leftCorners then rank a.x else rank b.x,
      if i ∈ lowerCorners then rank a.y else rank b.y) := by
  have hi4 : i < 4 := List.mem_range.mp (List.mem_of_mem_filter hi)
  obtain ⟨c, hc, hagrees⟩ := h i hi4 p hp
  have hpfinite := corners_isFinite p (mem_corners.mpr ⟨i, hi, hp⟩)
  have hcfinite := rectangleCorners_isFinite ha hb c (List.mem_of_getElem? hc)
  obtain rfl := Option.some.inj (hc.symm.trans (getElem?_rectangleCorners a b hi4))
  rw [(agrees_iff_spot hpfinite hcfinite).mp hagrees, spot, apply_ite rank, apply_ite rank]

theorem columns_of_leavesCorners : columns (s.corners id) =
    (fun i => if i ∈ leftCorners then rank a.x else rank b.x) '' {i | i ∈ s.knownCorners id} :=
  image_corners fun _ hi _ hp => congrArg Prod.fst (spot_of_leavesCorners ha hb h hi hp)

theorem rows_of_leavesCorners : rows (s.corners id) =
    (fun i => if i ∈ lowerCorners then rank a.y else rank b.y) '' {i | i ∈ s.knownCorners id} :=
  image_corners fun _ hi _ hp => congrArg Prod.snd (spot_of_leavesCorners ha hb h hi hp)

end Left

/-! ## Writing back -/

/-- An element is written back as another one, alone and in every drawing that is written back. -/
structure Turns {α : Type} [Scalar α] (s : Solved α) (e e' : Element α) : Prop where
  alone : s.elements [e] = .ok [e']
  among : ∀ {before after front back : List (Element α)}, s.elements before = .ok front →
    s.elements after = .ok back → s.elements (before ++ e :: after) = .ok (front ++ e' :: back)

theorem turns_of_element {α : Type} [Scalar α] {s : Solved α} {e e' : Element α}
    (hkeys : ∀ name ∈ s.names, name.isKey = true) (h : s.element e = .ok e') : s.Turns e e' := by
  obtain ⟨ids, hids⟩ : ∃ ids, s.names.mapM Value.asKey = .ok ids :=
    mapM_isOk fun name hname => ⟨name, Value.asKey_eq_ok.mpr ⟨hkeys name hname, rfl⟩⟩
  have helements : ∀ {es es'}, s.elements es = .ok es' ↔
      List.Forall₂ (fun e e' => s.element e = .ok e') es es' := fun {es es'} => by
    rw [elements, bind_eq_ok, ← mapM_eq_ok]
    exact ⟨fun ⟨_, _, h⟩ => h, fun h => ⟨ids, hids, h⟩⟩
  refine ⟨helements.mpr (.cons h .nil), fun hbefore hafter => ?_⟩
  exact helements.mpr (List.rel_append (helements.mp hbefore) (.cons h (helements.mp hafter)))

theorem element_rectangle {α : Type} [Scalar α] (s : Solved α) (id : Value) (a b : Point α) :
    s.element ⟨id, .rectangle a b⟩ =
      .ok ⟨id, (around? (s.corners id)).getD (.rectangle a b)⟩ := rfl

/-- **Corners that are left.** A rectangle whose corners are missing, not finite, or where they were
is written back as the same rectangle, unless all that is left are the two ends of one side. Then it
keeps its extent along that side and loses the one across. -/
theorem same_rectangle_unless_one_side (s : Solved Float) {id : Value} {a b : Point Float}
    (hkeys : ∀ name ∈ s.names, name.isKey = true) (ha : a.isFinite = true) (hb : b.isFinite = true)
    (h : s.LeavesCorners id a b) :
    ∃ p q, s.Turns ⟨id, .rectangle a b⟩ ⟨id, .rectangle p q⟩ ∧
      (SameRectangle a b p q ↔ (s.knownCorners id ∈ levelSides → (a.y == b.y) = true) ∧
        (s.knownCorners id ∈ plumbSides → (a.x == b.x) = true)) ∧
      (s.knownCorners id ∈ levelSides →
        rectangleWidth p q = rectangleWidth a b ∧ rectangleHeight p q = zero) ∧
      (s.knownCorners id ∈ plumbSides →
        rectangleWidth p q = zero ∧ rectangleHeight p q = rectangleHeight a b) := by
  obtain ⟨hax, hay⟩ := Bool.and_eq_true_iff.mp ha
  obtain ⟨hbx, hby⟩ := Bool.and_eq_true_iff.mp hb
  by_cases hlength : 2 ≤ (s.knownCorners id).length
  · have hfinite : ∀ c ∈ s.corners id, c.isFinite = true := corners_isFinite
    obtain ⟨p, q, hbox, hp, hq, hleft, hright, hlower, hupper⟩ :=
      around?_eq_some hfinite (hlength.trans_eq length_corners.symm)
    obtain ⟨hpx, hpy⟩ := Bool.and_eq_true_iff.mp hp
    obtain ⟨hqx, hqy⟩ := Bool.and_eq_true_iff.mp hq
    have hne : s.knownCorners id ≠ [] := by
      rintro hnil
      simp [hnil] at hlength
    have hcolumns := pair_eq_iff_shown hne (columns_of_leavesCorners ha hb h) hleft hright
    have hrows := pair_eq_iff_shown hne (rows_of_leavesCorners ha hb h) hlower hupper
    rw [both_columns_iff _ (s.knownCorners_mem_sublists id) hlength, ← imp_iff_or_not] at hcolumns
    rw [both_rows_iff _ (s.knownCorners_mem_sublists id) hlength, ← imp_iff_or_not] at hrows
    have helement : s.element ⟨id, .rectangle a b⟩ = .ok ⟨id, .rectangle p q⟩ := by
      rw [element_rectangle, hbox]
      rfl
    refine ⟨p, q, turns_of_element hkeys helement, ?_, fun hside => ?_, fun hside => ?_⟩
    · rw [sameRectangle_iff ha hb hp hq, hcolumns, hrows, beq_iff_rank hax hbx,
        beq_iff_rank hay hby, and_comm]
    · have hwidth := hcolumns.mpr fun hplumb => absurd hplumb (not_plumb_of_level _ hside)
      have hheight : rank p.y = rank q.y := bounds_eq_of_shown (rows_of_leavesCorners ha hb h)
        hlower hupper (one_row_of_level _ hside)
      exact ⟨abs_sub_eq_of_pair_eq hpx hqx hax hbx hwidth, abs_sub_eq_zero hpy hqy hheight⟩
    · have hheight := hrows.mpr fun hlevel => absurd hside (not_plumb_of_level _ hlevel)
      have hwidth : rank p.x = rank q.x := bounds_eq_of_shown (columns_of_leavesCorners ha hb h)
        hleft hright (one_column_of_plumb _ hside)
      exact ⟨abs_sub_eq_zero hpx hqx hwidth, abs_sub_eq_of_pair_eq hpy hqy hay hby hheight⟩
  · -- too few corners are left for a box, and the rectangle stays
    have hnone : around? (s.corners id) = none :=
      around?_eq_none (by rw [length_corners]; omega)
    have hlevel : s.knownCorners id ∉ levelSides := fun hside =>
      hlength (length_of_side _ (List.mem_append_left _ hside)).ge
    have hplumb : s.knownCorners id ∉ plumbSides := fun hside =>
      hlength (length_of_side _ (List.mem_append_right _ hside)).ge
    have helement : s.element ⟨id, .rectangle a b⟩ = .ok ⟨id, .rectangle a b⟩ := by
      rw [element_rectangle, hnone]
      rfl
    refine ⟨a, b, turns_of_element hkeys helement, ?_, fun hside => absurd hside hlevel,
      fun hside => absurd hside hplumb⟩
    exact iff_of_true ((sameRectangle_iff ha hb ha hb).mpr ⟨rfl, rfl⟩)
      ⟨fun hside => absurd hside hlevel, fun hside => absurd hside hplumb⟩

/-- What is left of a rectangle: three corners, one of which has no ordinate, so that two are known
that face each other. -/
def diagonal : Solved Float where
  vertices := [{ id := .text "R_corner0", x := 0.0, y := 0.0 },
    { id := .text "R_corner1", x := 40.0, y := 0.0 / 0.0 },
    { id := .text "R_corner2", x := 40.0, y := 30.0 }]
  rings := []

theorem same_rectangle_unless_one_side_diagonal :
    ∃ p q, diagonal.elements [⟨.text "R", .rectangle ⟨0.0, 0.0⟩ ⟨40.0, 30.0⟩⟩] =
        .ok [⟨.text "R", .rectangle p q⟩] ∧
      SameRectangle ⟨0.0, 0.0⟩ ⟨40.0, 30.0⟩ p q := by
  have hkeys : ∀ name ∈ diagonal.names, name.isKey = true := by decide
  have hknown : diagonal.knownCorners (.text "R") = [0, 2] := by decide +kernel
  have hleft : diagonal.LeavesCorners (.text "R") ⟨0.0, 0.0⟩ ⟨40.0, 30.0⟩ := by
    unfold LeavesCorners
    decide +kernel
  obtain ⟨p, q, hturns, hsame, -⟩ := same_rectangle_unless_one_side diagonal hkeys
    (by decide +kernel) (by decide +kernel) hleft
  refine ⟨p, q, hturns.alone, hsame.mpr ⟨fun hside => ?_, fun hside => ?_⟩⟩
  · rw [hknown] at hside
    exact absurd hside (by decide)
  · rw [hknown] at hside
    exact absurd hside (by decide)

/-- What is left of a rectangle: the ends of its lower side. -/
def lowerSide : Solved Float where
  vertices := [{ id := .text "R_corner0", x := 0.0, y := 0.0 },
    { id := .text "R_corner1", x := 40.0, y := 0.0 }]
  rings := []

/-- Both corners are where they were, and yet the rectangle becomes flat. -/
theorem lowerSide_flattens :
    lowerSide.LeavesCorners (.text "R") ⟨0.0, 0.0⟩ ⟨40.0, 30.0⟩ ∧
      lowerSide.elements [⟨.text "R", .rectangle ⟨0.0, 0.0⟩ ⟨40.0, 30.0⟩⟩] =
        .ok [⟨.text "R", .rectangle ⟨0.0, 0.0⟩ ⟨40.0, 0.0⟩⟩] ∧
      ¬ SameRectangle ⟨0.0, 0.0⟩ ⟨40.0, 30.0⟩ ⟨0.0, 0.0⟩ ⟨40.0, 0.0⟩ := by
  refine ⟨by unfold LeavesCorners; decide +kernel, rfl, fun h => ?_⟩
  exact absurd h.height (by decide +kernel)

end Solved

end Drafting
