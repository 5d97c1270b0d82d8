import Drafting.Proofs.Bystanders
import Drafting.Proofs.ResidualCount

/-!
What a term reads and what reads it. A term reads only what its constraint names: coordinates of
points, of the ends of lines and of the centers of circles, and radii of circles. Two states that
agree there give it the same mode and the same residuals, whatever they are elsewhere.

Residuals come from terms, in every mode the same number from each, so that a residual stands at the
same place at every state. Moving a variable that the term of a residual does not read therefore
leaves the residual as it is, and its difference quotient is that of a number from itself: zero if
the residual is finite, and undefined otherwise.
-/

namespace Drafting

open Scalar

variable {α : Type} {n k : Nat}

/-! ## What a constraint names -/

section Footprint

variable {vs : Vector (Vertex α) n} {edges : List Edge} {rs : Vector (Ring α) k} {c : Constraint}

/-- A place in a state that belongs to something a constraint names: to a point, to an end of a
line, to the center of a circle, or to its radius. -/
inductive Constraint.Footprint (vs : Vector (Vertex α) n) (edges : List Edge)
    (rs : Vector (Ring α) k) (c : Constraint) : Nat → Prop where
  | point {q : Value} {p : Fin n} {i : Nat} (hq : q ∈ c.points)
      (hp : resolvePoint vs c.owner q = .ok p) (hi : i ∈ Equation.pointPlaces p) :
      Footprint vs edges rs c i
  | line {q : Value} {l : LineRef n} {i : Nat} (hq : q ∈ c.lines)
      (hl : resolveLine vs edges c.owner q = .ok l) (hi : i ∈ Equation.linePlaces l) :
      Footprint vs edges rs c i
  | circle {q : Value} {d : CircleRef n k} {i : Nat} (hq : q ∈ c.circles)
      (hd : resolveCircle vs rs c.owner q = .ok d) (hi : i ∈ Equation.circlePlaces d) :
      Footprint vs edges rs c i

variable {points : List (Fin n)} {lines : List (LineRef n)} {circles : List (CircleRef n k)}
  {e : Equation n k}

/-- The coordinates of a point that an equation refers to belong to what the constraint names. -/
theorem Constraint.ResolvesTo.footprint_of_vertex
    (hc : c.ResolvesTo vs edges rs points lines circles) (he : e.Heads points lines circles)
    {p : Fin n} (hp : p ∈ e.vertices) {i : Nat} (hi : i ∈ Equation.pointPlaces p) :
    c.Footprint vs edges rs i := by
  rcases List.mem_append.mp hp with hp | hp
  · rcases List.mem_append.mp hp with hp | hp
    · obtain ⟨q, hq, hresolve⟩ := exists_of_forall₂_right hc.points (he.points.subset hp)
      exact .point hq hresolve hi
    · obtain ⟨l, hl, hend⟩ := List.mem_flatMap.mp hp
      obtain ⟨q, hq, hresolve⟩ := exists_of_forall₂_right hc.lines (he.lines.subset hl)
      refine .line hq hresolve ?_
      simp only [List.mem_cons, List.not_mem_nil, or_false] at hend
      rcases hend with rfl | rfl
      · exact List.mem_append_left _ hi
      · exact List.mem_append_right _ hi
  · obtain ⟨d, hd, rfl⟩ := List.mem_map.mp hp
    obtain ⟨q, hq, hresolve⟩ := exists_of_forall₂_right hc.circles (he.circles.subset hd)
    exact .circle hq hresolve (List.mem_append_left _ hi)

/-- What an equation may read belongs to what the constraint names. -/
theorem Constraint.ResolvesTo.footprint_of_mayRead
    (hc : c.ResolvesTo vs edges rs points lines circles) (he : e.Heads points lines circles)
    {i : Nat} (hi : e.MayRead i) : c.Footprint vs edges rs i := by
  cases hi with
  | first hp => exact hc.footprint_of_vertex he hp (by simp [Equation.pointPlaces])
  | second hp => exact hc.footprint_of_vertex he hp (by simp [Equation.pointPlaces])
  | radius hd =>
    obtain ⟨q, hq, hresolve⟩ := exists_of_forall₂_right hc.circles (he.circles.subset hd)
    exact .circle hq hresolve (List.mem_append_right _ (by simp [Equation.radiusPlace]))

end Footprint

/-! ## Where residuals come from -/

/-- Items made from others in two ways, equally many from each: where the two ways agree on what an
item was made from, it stands at the same place in both. -/
theorem getElem?_flatMap_of_length {β γ : Type} {f g : β → List γ} {bs : List β}
    (hlength : ∀ b ∈ bs, (f b).length = (g b).length) {i : Nat} {c : γ}
    (h : (bs.flatMap f)[i]? = some c) :
    ∃ b ∈ bs, c ∈ f b ∧ (f b = g b → (bs.flatMap g)[i]? = some c) := by
  induction bs generalizing i with
  | nil => cases h
  | cons b bs ih =>
    rw [List.flatMap_cons] at h
    rw [List.flatMap_cons]
    have hb : (f b).length = (g b).length := hlength b (by simp)
    by_cases hi : i < (f b).length
    · rw [List.getElem?_append_left hi] at h
      refine ⟨b, by simp, List.mem_of_getElem? h, fun hfg => ?_⟩
      rw [List.getElem?_append_left (hb ▸ hi), ← hfg]
      exact h
    · rw [List.getElem?_append_right (Nat.not_lt.mp hi), hb] at h
      obtain ⟨b', hb', hc, hplace⟩ := ih (fun a ha => hlength a (by simp [ha])) h
      refine ⟨b', by simp [hb'], hc, fun hfg => ?_⟩
      rw [List.getElem?_append_right (hb ▸ Nat.not_lt.mp hi)]
      exact hplace hfg

/-- A term does not tell two states apart: it has the same mode at both, and in every mode the same
residuals. -/
structure Term.Indifferent [Scalar α] (o : Options α) (t : Term α n k) (x y : State α n k) :
    Prop where
  mode : t.equation.mode? x.placement t.target = t.equation.mode? y.placement t.target
  residuals : ∀ mode, t.equation.residuals o x.placement t.target mode =
    t.equation.residuals o y.placement t.target mode

namespace System

variable {s : System α n k}

theorem mem_free {j : Fin (2 * n + k)} : j ∈ s.free ↔ s.isPinned j = false := by
  simp [free, List.mem_finRange]

variable [Scalar α]

/-- The residuals at a state in given modes, each with the term that it comes from. -/
def attributed (s : System α n k) (x : State α n k) (modes : List (Option Mode)) :
    List (Term α n k × α) :=
  (s.terms.zip modes).flatMap fun (t, mode) =>
    (t.equation.residuals s.options x.placement t.target mode).map (t, ·)

theorem map_attributed (s : System α n k) (x : State α n k) (modes : List (Option Mode)) :
    (s.attributed x modes).map (·.2) = s.residuals x modes := by
  simp [attributed, residuals, List.map_flatMap, Function.comp_def]

theorem mem_terms_of_attributed {x : State α n k} {modes : List (Option Mode)} {t : Term α n k}
    {r : α} (h : (t, r) ∈ s.attributed x modes) : t ∈ s.terms := by
  obtain ⟨⟨t', mode⟩, hmem, hr⟩ := List.mem_flatMap.mp h
  obtain ⟨_, _, hpair⟩ := List.mem_map.mp hr
  obtain ⟨rfl, _⟩ := Prod.mk.inj hpair
  exact (List.of_mem_zip hmem).1

/-- A residual is the same at two states, and at the same place, if its term does not tell them
apart. -/
theorem attributed_congr {x y : State α n k} {modes : List (Option Mode)} {i : Nat}
    {t : Term α n k} {r : α} (h : (s.attributed x modes)[i]? = some (t, r))
    (hterm : t.Indifferent s.options x y) : (s.attributed y modes)[i]? = some (t, r) := by
  obtain ⟨⟨t', mode⟩, _, hr, hplace⟩ := getElem?_flatMap_of_length
    (g := fun (t, mode) =>
      (t.equation.residuals s.options y.placement t.target mode).map (t, ·))
    (fun b _ => by simp only [List.length_map, Equation.length_residuals]) h
  obtain ⟨_, _, hpair⟩ := List.mem_map.mp hr
  obtain ⟨rfl, rfl⟩ := Prod.mk.inj hpair
  exact hplace (by simp only [hterm.residuals mode])

theorem residuals_getElem? {x : State α n k} {modes : List (Option Mode)} {i : Nat}
    {t : Term α n k} {r : α} (h : (s.attributed x modes)[i]? = some (t, r)) :
    (s.residuals x modes)[i]? = some r := by
  rw [← map_attributed, List.getElem?_map, h]
  rfl

/-! ## The Jacobian -/

/-- The entry of the Jacobian for a residual and a free variable that does not change the
residual. -/
theorem jacobian_entry_of_unchanged {x : State α n k} {modes : List (Option Mode)} {i : Nat} {r : α}
    {j : Fin (2 * n + k)} (hj : s.isPinned j = false) (hr : (s.residuals x modes)[i]? = some r)
    (hmoved : (s.residuals (nudge x j s.options.differenceStep) modes)[i]? = some r) :
    ((s.jacobian x (s.residuals x modes) modes).get j)[i]? =
      some ((r - r) / s.options.differenceStep) := by
  rw [jacobian, get_ofFn, jacobianColumn, if_neg (by simp [hj])]
  dsimp only
  rw [List.getElem?_zipWith, hr, hmoved]

/-- The column of the Jacobian for a coordinate of a pinned point is zero. -/
theorem jacobian_pinned {x : State α n k} {modes : List (Option Mode)} {j : Fin (2 * n + k)}
    (hj : s.isPinned j = true) (r : List α) :
    (s.jacobian x r modes).get j = List.replicate r.length zero := by
  rw [jacobian, get_ofFn, jacobianColumn, if_pos hj, List.map_const']

end System

/-! ## Compiled terms -/

section Compiled

variable [Scalar α] {vs : Vector (Vertex α) n} {edges : List Edge} {rs : Vector (Ring α) k}
  {cs : List Constraint} {o : Options α} {s : System α n k}

/-- **A term is local**: it does not tell apart states that agree on what its constraint names. -/
theorem System.indifferent_of_agree (hs : System.compile vs edges rs cs o = .ok s) {t : Term α n k}
    (ht : t ∈ s.terms) {x y : State α n k}
    (hxy : ∀ i : Fin (2 * n + k), t.constraint.Footprint vs edges rs i.val → x.get i = y.get i) :
    t.Indifferent s.options x y := by
  obtain ⟨c, _, _, hcompile⟩ := System.compile_term hs ht
  obtain ⟨rfl, points, lines, circles, hnames, hheads⟩ := Constraint.compile_term hcompile
  have hagree : State.AgreeOn (t.equation.footprint x.placement) x y := by
    intro i hi
    have hread : t.equation.MayRead i := t.equation.footprint_mayRead x.placement _ hi
    exact hxy i (hnames.footprint_of_mayRead hheads hread)
  exact ⟨Equation.mode?_congr t.target hagree,
    fun mode => Equation.residuals_congr s.options t.target mode hagree⟩

/-- Moving a variable that the constraint of a term does not name makes no difference to the
term. -/
theorem System.indifferent_nudge (hs : System.compile vs edges rs cs o = .ok s) {t : Term α n k}
    (ht : t ∈ s.terms) {j : Fin (2 * n + k)} (hj : ¬ t.constraint.Footprint vs edges rs j.val)
    (x : State α n k) (step : α) : t.Indifferent s.options x (System.nudge x j step) := by
  refine System.indifferent_of_agree hs ht fun i hi => ?_
  have hne : j.val ≠ i.val := fun heq => hj (heq ▸ hi)
  exact (System.nudge_get_of_ne x step hne).symm

/-- **Terms are local.** A term has the same mode, and in whatever mode the same residuals, at any
two states that agree on what its constraint names. Every residual comes from a term, and in the
Jacobian its entry for a free variable that the constraint does not name is the difference quotient
of the residual from itself. The columns of the variables that are not free are zero. -/
theorem terms_are_local (hs : System.compile vs edges rs cs o = .ok s) :
    (∀ t ∈ s.terms, ∀ x y : State α n k,
      (∀ i : Fin (2 * n + k), t.constraint.Footprint vs edges rs i.val → x.get i = y.get i) →
      t.Indifferent s.options x y) ∧
    ∀ (x : State α n k) (modes : List (Option Mode)),
      (s.attributed x modes).map (·.2) = s.residuals x modes ∧
      (∀ (i : Nat) (t : Term α n k) (r : α), (s.attributed x modes)[i]? = some (t, r) →
        ∀ j ∈ s.free, ¬ t.constraint.Footprint vs edges rs j.val →
        ((s.jacobian x (s.residuals x modes) modes).get j)[i]? =
          some ((r - r) / s.options.differenceStep)) ∧
      ∀ j ∉ s.free, ∀ r : List α,
        (s.jacobian x r modes).get j = List.replicate r.length zero := by
  refine ⟨?_, fun x modes => ⟨s.map_attributed x modes, ?_, ?_⟩⟩
  · intro t ht x y hxy
    exact System.indifferent_of_agree hs ht hxy
  · intro i t r hi j hj hapart
    have ht : t ∈ s.terms := System.mem_terms_of_attributed (List.mem_of_getElem? hi)
    have hmoved := System.attributed_congr hi
      (System.indifferent_nudge hs ht hapart x s.options.differenceStep)
    exact System.jacobian_entry_of_unchanged (System.mem_free.mp hj)
      (System.residuals_getElem? hi) (System.residuals_getElem? hmoved)
  · intro j hj r
    exact System.jacobian_pinned (by simpa [System.mem_free] using hj) r

end Compiled

/-- Two ends, a point beside them and one that is fixed. -/
def fourSpots : Vector (Vertex Float) 4 := #v[
  { id := .text "a", x := 0.0, y := 0.0 },
  { id := .text "b", x := 3.0, y := 4.0 },
  { id := .text "beside", x := 7.0, y := 7.0 },
  { id := .text "held", x := 1.0, y := 9.0, fixed := .bool true }]

/-- A circle around the point beside. -/
def ringBeside : Vector (Ring Float) 1 := #v[⟨.text "ring", .text "beside", 2.0⟩]

/-- The ends are to be five apart. -/
def endsApart : Constraint where
  kind := .distance
  id := .text "d"
  points := [.text "a", .text "b"]
  value := .float 5.0

/-- The constraint names the first two points, which have the first four variables. -/
theorem endsApart_footprint {i : Nat} (h : endsApart.Footprint fourSpots [] ringBeside i) :
    i < 4 := by
  cases h with
  | @point q p i hq hp hi =>
    have hfirst : fourSpots.toList.findIdx? (·.id == .text "a") = some 0 := by rfl
    have hsecond : fourSpots.toList.findIdx? (·.id == .text "b") = some 1 := by rfl
    obtain ⟨_, hfound⟩ := resolvePoint_eq_ok.mp hp
    have hplace : p.val < 2 := by
      simp only [endsApart, List.mem_cons, List.not_mem_nil, or_false] at hq
      rcases hq with rfl | rfl
      · have hzero : 0 = p.val := Option.some.inj (hfirst.symm.trans hfound)
        omega
      · have hone : 1 = p.val := Option.some.inj (hsecond.symm.trans hfound)
        omega
    simp only [Equation.pointPlaces, List.mem_cons, List.not_mem_nil, or_false] at hi
    omega
  | line hq => cases hq
  | circle hq => cases hq

/-- The distance of the ends is told by them alone. Its entry for the radius of the circle is a
quotient of the residual from itself, and the column of the fixed point is zero. -/
theorem terms_are_local_fourSpots : ∃ s t r,
    System.compile fourSpots [] ringBeside [endsApart] .standard = .ok s ∧
    (s.attributed s.initial (s.modes s.initial))[0]? = some (t, r) ∧
    (∀ y : State Float 4 1, (∀ i, i.val < 4 → s.initial.get i = y.get i) →
      t.Indifferent s.options s.initial y) ∧
    ((s.jacobian s.initial (s.residuals s.initial (s.modes s.initial))
      (s.modes s.initial)).get 8)[0]? = some ((r - r) / s.options.differenceStep) ∧
    (s.jacobian s.initial [r] (s.modes s.initial)).get 6 = [zero] := by
  have hsystem : (match System.compile fourSpots [] ringBeside [endsApart] .standard with
      | .ok s => decide ((s.attributed s.initial (s.modes s.initial)).length = 1 ∧
          8 ∈ s.free ∧ 6 ∉ s.free)
      | .error _ => false) = true := by decide +kernel
  split at hsystem
  case h_2 => cases hsystem
  case h_1 s hs =>
    obtain ⟨hlength, hfree, hheld⟩ := of_decide_eq_true hsystem
    obtain ⟨⟨t, r⟩, hone⟩ := List.length_eq_one_iff.mp hlength
    have hzero : (s.attributed s.initial (s.modes s.initial))[0]? = some (t, r) := by
      rw [hone]
      rfl
    have ht : t ∈ s.terms := System.mem_terms_of_attributed (List.mem_of_getElem? hzero)
    have hconstraint : t.constraint = endsApart := by
      obtain ⟨c, hc, _, hcompile⟩ := System.compile_term hs ht
      rw [(Constraint.compile_term hcompile).1]
      exact List.mem_singleton.mp hc
    obtain ⟨hlocal, hjacobian⟩ := terms_are_local hs
    obtain ⟨-, hentry, hcolumn⟩ := hjacobian s.initial (s.modes s.initial)
    refine ⟨s, t, r, hs, hzero, fun y hy => ?_, ?_, hcolumn 6 hheld [r]⟩
    · refine hlocal t ht _ _ fun i hi => hy i ?_
      exact endsApart_footprint (hconstraint ▸ hi)
    · refine hentry 0 t r hzero 8 hfree fun hi => ?_
      have hlt := endsApart_footprint (hconstraint ▸ hi)
      exact absurd hlt (by decide)

end Drafting
