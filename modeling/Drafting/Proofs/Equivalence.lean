import Mathlib.Data.List.Perm.Basic
import Drafting.Proofs.Acceptance
import Drafting.Proofs.Magnitudes

/-!
The algebra of saying the same. For constraints as drawings have them, which name things by texts
and have a number for their value or none, saying the same comes to three things: they are of one
kind, they name the same points, lines and circles, each as often, and where the kind has a target
the targets differ by less than the tolerance.

So it is symmetric, and neither the order of names nor identifiers nor switches matter. Without
targets it is an equivalence. With targets it is not transitive, and an undefined or infinite
target is not even the same as itself. Whether a constraint is new to others depends neither on
their order nor on which of two constraints is compared to the other.
-/

namespace Drafting

open Scalar

namespace Constraint

variable {c c' d d' : Constraint}

/-! ## What saying the same comes to -/

/-- A constraint as drawings have them: it names things by texts, and its value is a number or
missing. -/
structure Comparable (c : Constraint) : Prop where
  names : c.NamesTexts
  value : c.value = .null ∨ ∃ x, c.value = .float x

/-- The target as a number, zero where it is missing. -/
def goal (c : Constraint) : Float :=
  match c.value with
  | .float x => x
  | _ => zero

theorem Comparable.target (hc : c.Comparable) : c.target = .ok c.goal := by
  unfold Constraint.target goal
  rcases hc.value with h | ⟨x, h⟩
  · rw [h]
  · rw [h]
    rfl

/-- Two constraints are of one kind and name the same points, lines and circles, each as often. -/
structure SameSubject (c d : Constraint) : Prop where
  kind : c.kind = d.kind
  points : c.points.Perm d.points
  lines : c.lines.Perm d.lines
  circles : c.circles.Perm d.circles

theorem SameSubject.refl (c : Constraint) : c.SameSubject c := ⟨rfl, .refl _, .refl _, .refl _⟩

theorem SameSubject.symm (h : c.SameSubject d) : d.SameSubject c :=
  ⟨h.kind.symm, h.points.symm, h.lines.symm, h.circles.symm⟩

theorem SameSubject.trans (h : c.SameSubject d) (h' : d.SameSubject d') : c.SameSubject d' :=
  ⟨h.kind.trans h'.kind, h.points.trans h'.points, h.lines.trans h'.lines,
    h.circles.trans h'.circles⟩

/-- Two targets differ by less than the tolerance. -/
def SameGoal (c d : Constraint) : Prop := (c.goal - d.goal).abs < targetTolerance

instance (c d : Constraint) : Decidable (c.SameGoal d) :=
  inferInstanceAs (Decidable ((c.goal - d.goal).abs < targetTolerance))

theorem SameGoal.symm (h : c.SameGoal d) : d.SameGoal c := by
  unfold SameGoal at h ⊢
  rwa [(SameSize.sub_swap d.goal c.goal).abs_eq]

/-- A finite target is the same as itself. -/
theorem SameGoal.refl (h : Scalar.isFinite c.goal = true) : c.SameGoal c := by
  unfold SameGoal
  rw [float_sub_self h]
  decide

theorem sameNames_iff {xs ys : List Value} (hxs : ∀ x ∈ xs, x.IsText) (hys : ∀ y ∈ ys, y.IsText) :
    ∃ same, sameNames xs ys = .ok same ∧ (same = true ↔ xs.Perm ys) := by
  obtain ⟨us, rfl⟩ := Value.exists_texts hxs
  obtain ⟨vs, rfl⟩ := Value.exists_texts hys
  rw [List.map_perm_map_iff fun a b => Value.text.inj]
  exact sameNames_texts us vs

/-- Lists of names are compared in turn, up to the first that differs. -/
theorem sameReferences_iff (hc : c.NamesTexts) (hd : d.NamesTexts) :
    ∃ same, c.sameReferences d = .ok same ∧
      (same = true ↔
        c.points.Perm d.points ∧ c.lines.Perm d.lines ∧ c.circles.Perm d.circles) := by
  obtain ⟨points, hpoints, hpointsPerm⟩ := sameNames_iff hc.points hd.points
  obtain ⟨lines, hlines, hlinesPerm⟩ := sameNames_iff hc.lines hd.lines
  obtain ⟨circles, hcircles, hcirclesPerm⟩ := sameNames_iff hc.circles hd.circles
  refine ⟨points && lines && circles, ?_, ?_⟩
  · unfold sameReferences
    rw [hpoints, hlines, hcircles]
    cases points with
    | false => rfl
    | true => cases lines <;> rfl
  · rw [Bool.and_eq_true, Bool.and_eq_true, hpointsPerm, hlinesPerm, hcirclesPerm, and_assoc]

/-- **What saying the same comes to.** It is always decided, and means one subject and, for a kind
with targets, one target up to the tolerance. -/
theorem sameAs_iff (hc : c.Comparable) (hd : d.Comparable) :
    ∃ same, c.sameAs d = .ok same ∧
      (same = true ↔ c.SameSubject d ∧ (c.kind.isDimension = true → c.SameGoal d)) := by
  obtain ⟨names, hnames, hnamesPerm⟩ := sameReferences_iff hc.names hd.names
  by_cases hkind : c.kind = d.kind
  · have hsubject : names = true ↔ c.SameSubject d := by
      rw [hnamesPerm]
      exact ⟨fun ⟨hp, hl, hr⟩ => ⟨hkind, hp, hl, hr⟩, fun h => ⟨h.points, h.lines, h.circles⟩⟩
    unfold sameAs
    rw [if_neg (by simp [hkind]), hnames]
    cases names with
    | false => exact ⟨false, rfl, by simp [← hsubject]⟩
    | true =>
      cases hdimension : c.kind.isDimension with
      | false => exact ⟨true, rfl, by simp [← hsubject]⟩
      | true =>
        have htarget : c.sameTarget d = .ok (decide (c.SameGoal d)) :=
          bind_eq_ok.mpr ⟨_, hc.target, bind_eq_ok.mpr ⟨_, hd.target, rfl⟩⟩
        exact ⟨decide (c.SameGoal d), htarget, by simp [← hsubject]⟩
  · refine ⟨false, ?_, ⟨nofun, fun h => absurd h.1.kind hkind⟩⟩
    unfold sameAs
    rw [if_pos (by simpa using hkind)]
    rfl

theorem sameAs_eq_true_iff (hc : c.Comparable) (hd : d.Comparable) : c.sameAs d = .ok true ↔
    c.SameSubject d ∧ (c.kind.isDimension = true → c.SameGoal d) := by
  obtain ⟨same, hsame, hiff⟩ := sameAs_iff hc hd
  rw [hsame, ← hiff]
  exact ⟨Except.ok.inj, congrArg _⟩

theorem sameAs_eq_false_iff (hc : c.Comparable) (hd : d.Comparable) :
    c.sameAs d = .ok false ↔ c.sameAs d ≠ .ok true := by
  obtain ⟨same, hsame, -⟩ := sameAs_iff hc hd
  rw [hsame]
  cases same with
  | false => exact ⟨fun _ => nofun, fun _ => rfl⟩
  | true => exact ⟨nofun, fun h => absurd rfl h⟩

/-- What is decided the same way is the same answer. -/
theorem sameAs_congr (hc : c.Comparable) (hd : d.Comparable) (hc' : c'.Comparable)
    (hd' : d'.Comparable) (h : c.sameAs d = .ok true ↔ c'.sameAs d' = .ok true) :
    c.sameAs d = c'.sameAs d' := by
  obtain ⟨same, hsame, -⟩ := sameAs_iff hc hd
  obtain ⟨same', hsame', -⟩ := sameAs_iff hc' hd'
  rw [hsame, hsame', Except.ok.injEq, Except.ok.injEq, ← Bool.eq_iff_iff] at h
  rw [hsame, hsame', h]

/-! ## The laws -/

/-- A constraint says what another says in another order: kind and value are the same, the names are
permuted. Identifier and switch may be others. -/
structure Rearranges (c c' : Constraint) : Prop where
  subject : c.SameSubject c'
  value : c'.value = c.value

theorem Rearranges.goal (h : c.Rearranges c') : c'.goal = c.goal := by
  unfold Constraint.goal
  rw [h.value]

theorem Rearranges.comparable (h : c.Rearranges c') (hc : c.Comparable) : c'.Comparable := by
  refine ⟨fun q hq => hc.names q ?_, by rw [h.value]; exact hc.value⟩
  have hperm : c.references.Perm c'.references :=
    (h.subject.points.append h.subject.lines).append h.subject.circles
  exact hperm.mem_iff.mpr hq

theorem sameAs_symm (hc : c.Comparable) (hd : d.Comparable) : c.sameAs d = d.sameAs c := by
  have hswap : ∀ {c d : Constraint},
      c.SameSubject d ∧ (c.kind.isDimension = true → c.SameGoal d) →
        d.SameSubject c ∧ (d.kind.isDimension = true → d.SameGoal c) :=
    fun ⟨hsubject, hgoal⟩ => ⟨hsubject.symm, fun h => (hgoal (hsubject.kind ▸ h)).symm⟩
  refine sameAs_congr hc hd hd hc ?_
  rw [sameAs_eq_true_iff hc hd, sameAs_eq_true_iff hd hc]
  exact ⟨hswap, hswap⟩

theorem sameAs_rearranged (hc : c.Comparable) (hd : d.Comparable) (hcc' : c.Rearranges c')
    (hdd' : d.Rearranges d') : c'.sameAs d' = c.sameAs d := by
  have hc' := hcc'.comparable hc
  have hd' := hdd'.comparable hd
  refine sameAs_congr hc' hd' hc hd ?_
  rw [sameAs_eq_true_iff hc' hd', sameAs_eq_true_iff hc hd, ← hcc'.subject.kind]
  have hgoal : c'.SameGoal d' ↔ c.SameGoal d := by rw [SameGoal, hcc'.goal, hdd'.goal, SameGoal]
  rw [hgoal]
  refine and_congr_left fun _ => ⟨fun h => ?_, fun h => ?_⟩
  · exact (hcc'.subject.trans h).trans hdd'.subject.symm
  · exact (hcc'.subject.symm.trans h).trans hdd'.subject

theorem sameAs_refl (hc : c.Comparable)
    (hgoal : c.kind.isDimension = true → Scalar.isFinite c.goal = true) : c.sameAs c = .ok true :=
  (sameAs_eq_true_iff hc hc).mpr ⟨.refl c, fun h => .refl (hgoal h)⟩

/-- Among constraints without targets saying the same is an equivalence. -/
theorem sameAs_equivalence :
    Equivalence fun c d : {c : Constraint // c.Comparable ∧ c.kind.isDimension = false} =>
      c.val.sameAs d.val = .ok true := by
  have hiff : ∀ c d : {c : Constraint // c.Comparable ∧ c.kind.isDimension = false},
      c.val.sameAs d.val = .ok true ↔ c.val.SameSubject d.val := by
    intro c d
    rw [sameAs_eq_true_iff c.property.1 d.property.1, c.property.2]
    simp
  simp only [hiff]
  exact ⟨fun c => .refl c.val, .symm, .trans⟩

/-- A constraint is new to others exactly if it says the same as none of them, asked in either
direction. -/
theorem duplicateIndex?_eq_none_iff {cs : List Constraint} (hc : c.Comparable)
    (hcs : ∀ d ∈ cs, d.Comparable) : c.duplicateIndex? cs = .ok none ↔
      ∀ d ∈ cs, d.sameAs c ≠ .ok true ∧ c.sameAs d ≠ .ok true := by
  rw [duplicateIndex?_eq_none]
  refine forall₂_congr fun d hd => ?_
  rw [sameAs_eq_false_iff (hcs d hd) hc, sameAs_symm hc (hcs d hd), and_self]

/-- **The laws of saying the same.** Of constraints as drawings have them it is always decided
whether one says the same as another, and the answer is symmetric. It does not change if either
names its things in another order, is switched on or off or has another identifier. It means that
they are of one kind and name the same things, each as often, and for a kind with targets also that
these differ by less than the tolerance; a constraint with a finite target says the same as itself.
Without targets this is an equivalence. A constraint is new to a list exactly if it says the same as
none of its members, in whichever direction, and in whatever order they come. -/
theorem sameAs_laws :
    (∀ c d : Constraint, c.Comparable → d.Comparable →
      (∃ same, c.sameAs d = .ok same) ∧ c.sameAs d = d.sameAs c ∧
      (∀ c' d', c.Rearranges c' → d.Rearranges d' → c'.sameAs d' = c.sameAs d) ∧
      (c.sameAs d = .ok true ↔
        c.SameSubject d ∧ (c.kind.isDimension = true → c.SameGoal d)) ∧
      (Scalar.isFinite c.goal = true → c.sameAs c = .ok true)) ∧
    (Equivalence fun c d : {c : Constraint // c.Comparable ∧ c.kind.isDimension = false} =>
      c.val.sameAs d.val = .ok true) ∧
    ∀ (c : Constraint) (cs : List Constraint), c.Comparable → (∀ d ∈ cs, d.Comparable) →
      (c.duplicateIndex? cs = .ok none ↔
        ∀ d ∈ cs, d.sameAs c ≠ .ok true ∧ c.sameAs d ≠ .ok true) ∧
      ∀ cs', cs'.Perm cs →
        (c.duplicateIndex? cs' = .ok none ↔ c.duplicateIndex? cs = .ok none) := by
  refine ⟨fun c d hc hd => ⟨?_, sameAs_symm hc hd, fun c' d' => sameAs_rearranged hc hd,
    sameAs_eq_true_iff hc hd, fun hgoal => sameAs_refl hc fun _ => hgoal⟩, sameAs_equivalence,
    fun c cs hc hcs => ⟨duplicateIndex?_eq_none_iff hc hcs, fun cs' hperm => ?_⟩⟩
  · obtain ⟨same, hsame, -⟩ := sameAs_iff hc hd
    exact ⟨same, hsame⟩
  · rw [duplicateIndex?_eq_none_iff hc hcs,
      duplicateIndex?_eq_none_iff hc fun d hd => hcs d (hperm.mem_iff.mp hd)]
    simp only [hperm.mem_iff]

/-- The distance of two points. -/
def gap (p q : String) (value : Value) : Constraint :=
  .distance (.text "d") (.text p) (.text q) value

theorem gap_comparable (p q : String) {value : Value}
    (h : value = .null ∨ ∃ x, value = .float x) : (gap p q value).Comparable := by
  refine ⟨fun name hname => ?_, h⟩
  rcases List.mem_pair.mp hname with rfl | rfl
  · exact ⟨p, rfl⟩
  · exact ⟨q, rfl⟩

theorem gap_sameSubject (p q : String) (v w : Value) : (gap p q v).SameSubject (gap q p w) :=
  ⟨rfl, .swap _ _ _, .refl _, .refl _⟩

/-- A missing distance says the same as a tiny one, and this the same as one twice as large, but the
first and the last do not. So the first is new to the last, and not to both, in whatever order. -/
theorem sameAs_laws_gap :
    (gap "p" "q" .null).sameAs (gap "q" "p" (.float 6e-10)) = .ok true ∧
    (gap "q" "p" (.float 6e-10)).sameAs (gap "p" "q" (.float 12e-10)) = .ok true ∧
    (gap "p" "q" .null).sameAs (gap "p" "q" (.float 12e-10)) ≠ .ok true ∧
    (gap "p" "q" .null).duplicateIndex? [gap "p" "q" (.float 12e-10)] = .ok none ∧
    (gap "p" "q" .null).duplicateIndex?
      [gap "p" "q" (.float 12e-10), gap "q" "p" (.float 6e-10)] ≠ .ok none := by
  have hnone : (gap "p" "q" .null).Comparable := gap_comparable _ _ (.inl rfl)
  have htiny : (gap "q" "p" (.float 6e-10)).Comparable := gap_comparable _ _ (.inr ⟨_, rfl⟩)
  have hsmall : (gap "p" "q" (.float 12e-10)).Comparable := gap_comparable _ _ (.inr ⟨_, rfl⟩)
  obtain ⟨hpairs, -, hlists⟩ := sameAs_laws
  obtain ⟨-, hsymm, -, hfirst, -⟩ := hpairs _ _ hnone htiny
  obtain ⟨-, -, -, hsecond, -⟩ := hpairs _ _ htiny hsmall
  obtain ⟨-, hsymm', -, hthird, -⟩ := hpairs _ _ hnone hsmall
  have hsame := hfirst.mpr ⟨gap_sameSubject _ _ _ _, fun _ => by decide +kernel⟩
  have hapart : (gap "p" "q" .null).sameAs (gap "p" "q" (.float 12e-10)) ≠ .ok true := fun h =>
    absurd ((hthird.mp h).2 rfl) (by decide +kernel)
  refine ⟨hsame, hsecond.mpr ⟨gap_sameSubject _ _ _ _, fun _ => by decide +kernel⟩, hapart, ?_, ?_⟩
  · refine (hlists _ _ hnone (List.forall_mem_singleton.mpr hsmall)).1.mpr fun d hd => ?_
    rw [List.mem_singleton.mp hd, ← hsymm']
    exact ⟨hapart, hapart⟩
  · intro h
    have hboth : ∀ d ∈ [gap "p" "q" (.float 12e-10), gap "q" "p" (.float 6e-10)], d.Comparable :=
      List.forall_mem_cons.mpr ⟨hsmall, List.forall_mem_singleton.mpr htiny⟩
    exact ((hlists _ _ hnone hboth).1.mp h _ (List.mem_pair.mpr (.inr rfl))).2 hsame

end Constraint

end Drafting
