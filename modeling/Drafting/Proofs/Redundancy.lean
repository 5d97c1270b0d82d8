import Drafting.Proofs.Equivalence
import Drafting.Proofs.Exchange

/-!
Redundant constraints. A constraint that is refused because another says the same is not missed: of
the two it does not matter which one is there. They pin the same points, and stand for one equation
or for two that differ in the order of their things.

There is an exception. Radii and distances between points may name more than their equations have,
and take these from the front. So which of the references are in front matters, while for saying the
same it does not: a radius that names two circles says the same as one that names them in the other
order, and sizes another circle.
-/

namespace Drafting

open Scalar

variable {n k : Nat}

/-! ## Names in another order -/

section Names

variable {α : Type} {vs : Vector (Vertex α) n} {edges : List Edge} {rs : Vector (Ring α) k}
  {owner : String} {q : Value}

/-- Who names a point does not matter for what the name stands for. -/
theorem resolvePoint_owner {i : Fin n} (h : resolvePoint vs owner q = .ok i) (owner' : String) :
    resolvePoint vs owner' q = .ok i :=
  resolvePoint_eq_ok.mpr (resolvePoint_eq_ok.mp h)

theorem resolveLine_owner {l : LineRef n} (h : resolveLine vs edges owner q = .ok l)
    (owner' : String) : resolveLine vs edges owner' q = .ok l := by
  obtain ⟨w, hw, h⟩ := bind_eq_ok.mp h
  refine bind_eq_ok.mpr ⟨w, hw, ?_⟩
  split at h
  · rename_i e he
    obtain ⟨p1, hp1, h⟩ := bind_eq_ok.mp h
    obtain ⟨p2, hp2, h⟩ := bind_eq_ok.mp h
    exact bind_eq_ok.mpr ⟨p1, resolvePoint_owner hp1 owner',
      bind_eq_ok.mpr ⟨p2, resolvePoint_owner hp2 owner', h⟩⟩
  · cases h

theorem resolveCircle_owner {c : CircleRef n k} (h : resolveCircle vs rs owner q = .ok c)
    (owner' : String) : resolveCircle vs rs owner' q = .ok c := by
  obtain ⟨w, hw, h⟩ := bind_eq_ok.mp h
  refine bind_eq_ok.mpr ⟨w, hw, ?_⟩
  split at h
  · rename_i i hi
    obtain ⟨center, hcenter, h⟩ := bind_eq_ok.mp h
    exact bind_eq_ok.mpr ⟨center, resolvePoint_owner hcenter owner', h⟩
  · cases h

/-- A name stands for one thing. -/
theorem resolves_rightUnique {β : Type} (f : Value → Except Error β) :
    Relator.RightUnique fun q b => f q = .ok b :=
  fun _ _ _ h h' => Except.ok.inj (h.symm.trans h')

theorem head?_eq_of_forall₂ {β γ : Type} {R : β → γ → Prop} (hR : Relator.RightUnique R)
    {bs bs' : List β} {cs cs' : List γ} (h : List.Forall₂ R bs cs) (h' : List.Forall₂ R bs' cs')
    (hhead : bs.head? = bs'.head?) : cs.head? = cs'.head? := by
  cases h with
  | nil =>
    cases h' with
    | nil => rfl
    | cons => cases hhead
  | cons hb _ =>
    cases h' with
    | nil => cases hhead
    | cons hb' _ =>
      cases hhead
      exact congrArg some (hR hb hb')

namespace Constraint

variable {c d : Constraint} {x y : Operands n k}

/-- What a constraint names can be named by another. -/
theorem ResolvesTo.named (h : d.ResolvesTo vs edges rs x.points x.lines x.circles)
    (owner : String) :
    List.Forall₂ (fun q i => resolvePoint vs owner q = .ok i) d.points x.points ∧
    List.Forall₂ (fun q l => resolveLine vs edges owner q = .ok l) d.lines x.lines ∧
    List.Forall₂ (fun q e => resolveCircle vs rs owner q = .ok e) d.circles x.circles :=
  ⟨h.points.imp fun _ _ h => resolvePoint_owner h owner,
    h.lines.imp fun _ _ h => resolveLine_owner h owner,
    h.circles.imp fun _ _ h => resolveCircle_owner h owner⟩

/-- The same names in another order stand for the same things in another order. -/
theorem SameSubject.permutes (h : c.SameSubject d)
    (hx : c.ResolvesTo vs edges rs x.points x.lines x.circles)
    (hy : d.ResolvesTo vs edges rs y.points y.lines y.circles) : x.Permutes y := by
  obtain ⟨hpoints, hlines, hcircles⟩ := hy.named c.owner
  exact ⟨List.rel_perm_imp (resolves_rightUnique _) hx.points hpoints h.points,
    List.rel_perm_imp (resolves_rightUnique _) hx.lines hlines h.lines,
    List.rel_perm_imp (resolves_rightUnique _) hx.circles hcircles h.circles⟩

theorem SameSubject.counts (h : c.SameSubject d) : c.counts = d.counts := by
  rw [Constraint.counts, Constraint.counts, h.points.length_eq, h.lines.length_eq,
    h.circles.length_eq]

/-- Two constraints that say the same have the same references in front, where these decide what the
constraint is about: a radius has the same first circle, a distance between points the same two
first points, in whatever order. -/
structure ReadsAlike (c d : Constraint) : Prop where
  radius : c.kind = .radius → c.circles.head? = d.circles.head?
  distance : c.kind = .distance → c.counts.SpansPoints →
    (c.points.take 2).Perm (d.points.take 2)

theorem ReadsAlike.leads (h : c.ReadsAlike d)
    (hx : c.ResolvesTo vs edges rs x.points x.lines x.circles)
    (hy : d.ResolvesTo vs edges rs y.points y.lines y.circles) : x.Leads c.kind y := by
  obtain ⟨hpoints, _, hcircles⟩ := hy.named c.owner
  refine ⟨fun hkind => ?_, fun hkind hspans => ?_⟩
  · exact head?_eq_of_forall₂ (resolves_rightUnique _) hx.circles hcircles (h.radius hkind)
  · exact List.rel_perm_imp (resolves_rightUnique _) (List.forall₂_take 2 hx.points)
      (List.forall₂_take 2 hpoints) (h.distance hkind (hx.counts ▸ hspans))

theorem SameSubject.fixes (h : c.SameSubject d) {i : Fin n} (hi : c.Fixes vs rs i) :
    d.Fixes vs rs i := by
  obtain ⟨hkind, ⟨q, hq, hqi⟩ | ⟨q, hq, e, hqe, hei⟩⟩ := hi
  · exact ⟨h.kind ▸ hkind, .inl ⟨q, h.points.mem_iff.mp hq, resolvePoint_owner hqi _⟩⟩
  · exact ⟨h.kind ▸ hkind,
      .inr ⟨q, h.circles.mem_iff.mp hq, e, resolveCircle_owner hqe _, hei⟩⟩

/-- Constraints that say the same and name no more than their patterns need have the same references
in front. -/
theorem SameSubject.readsAlike (h : c.SameSubject d)
    (hradius : c.kind = .radius → c.circles.length ≤ 1)
    (hdistance : c.kind = .distance → c.counts.SpansPoints → c.points.length ≤ 2) :
    c.ReadsAlike d := by
  refine ⟨fun hkind => ?_, fun hkind hspans => ?_⟩
  · have hfirst := hradius hkind
    have hcircles := h.circles
    match hlist : c.circles, hfirst with
    | [], _ =>
      rw [hlist] at hcircles
      rw [List.nil_perm.mp hcircles]
    | [q], _ =>
      rw [hlist] at hcircles
      rw [List.perm_singleton.mp hcircles.symm]
  · have hlength := hdistance hkind hspans
    rw [List.take_of_length_le hlength, List.take_of_length_le (h.points.length_eq ▸ hlength)]
    exact h.points

/-- The targets of two constraints are equal as numbers, where their kind has one. -/
def EqualTargets (c d : Constraint) : Prop :=
  c.kind.isDimension = true → ∀ a b : Float, c.target = .ok a → d.target = .ok b → (a == b) = true

end Constraint

end Names

/-! ## Terms -/

namespace Term

/-- The residuals of a term at a placement, in the mode that is selected there. -/
def selected (o : Options Float) (x : Placement Float n k) (t : Term Float n k) : List Float :=
  t.equation.residuals o x t.target (t.equation.mode? x t.target)

/-- The targets of two terms are equal as numbers, if the equation of the first has one. -/
def EqualTargets (t u : Term Float n k) : Prop :=
  t.equation.hasTarget = true → (t.target == u.target) = true

variable {t u : Term Float n k}

/-- Terms of akin equations have equally many residuals. -/
theorem length_selected (h : t.equation.Akin u.equation) (htarget : t.EqualTargets u)
    (o : Options Float) (x : Placement Float n k) :
    (t.selected o x).length = (u.selected o x).length := by
  obtain ⟨_, e, target⟩ := t
  obtain ⟨_, e', target'⟩ := u
  cases h with
  | turned h => exact (h.sameSizes_of_beq htarget o x).2.length_eq
  | radius | pointDistance => exact List.length_singleton.trans List.length_singleton.symm

variable {vs : Vector (Vertex Float) n} {edges : List Edge} {rs : Vector (Ring Float) k}
  {c d : Constraint}

/-- What the terms of two constraints that say the same have in common. -/
structure Doubles (c d : Constraint) (t u : Term Float n k) : Prop where
  akin : t.equation.Akin u.equation
  targets : t.EqualTargets u
  turned : c.ReadsAlike d → t.equation.Turned u.equation

theorem IsOf.doubles (ht : t.IsOf vs edges rs c) (hu : u.IsOf vs edges rs d)
    (h : c.SameSubject d) (htarget : c.EqualTargets d) : Doubles c d t u := by
  obtain ⟨rule, x, hrule, hx, he⟩ := ht.equation
  obtain ⟨rule', y, hrule', hy, he'⟩ := hu.equation
  have hsame : d.rule? = c.rule? := by
    rw [Constraint.rule?, Constraint.rule?, h.kind, h.counts]
  rw [hsame, hrule] at hrule'
  cases hrule'
  have hkindRule : c.kind.rule? x.counts = some rule := hx.counts ▸ hrule
  have hkindRule' : c.kind.rule? y.counts = some rule := by
    rw [← hy.counts, ← h.counts]
    exact hrule
  obtain ⟨f, hf, hfe⟩ := ConstraintKind.equation?_of_rule? hkindRule
  obtain ⟨f', hf', hfe'⟩ := ConstraintKind.equation?_of_rule? hkindRule'
  cases he.symm.trans hfe
  cases he'.symm.trans hfe'
  have hakin := Rule.akin hkindRule (h.permutes hx hy) he he'
  exact ⟨hakin, fun hhas => htarget (ConstraintKind.isDimension_of_hasTarget hf hhas) _ _
    ht.target hu.target, fun hreads => hakin.leading (hreads.leads hx hy) hf hf'⟩

end Term

/-! ## Systems -/

namespace System

/-- All residuals vanish at a state, in the modes that are selected there. -/
def VanishesAt (s : System Float n k) (x : State Float n k) : Prop :=
  ∀ r ∈ s.residuals x (s.modes x), (r == (zero : Float)) = true

instance (s : System Float n k) (x : State Float n k) : Decidable (s.VanishesAt x) :=
  inferInstanceAs (Decidable (∀ r ∈ s.residuals x (s.modes x), (r == (zero : Float)) = true))

/-- Two systems ask for the same at every state: the modes that are selected there are the same, the
residuals in them have the same sizes one by one, and so they vanish together. -/
structure AsksSame (s t : System Float n k) : Prop where
  modes : ∀ x, s.modes x = t.modes x
  residuals : ∀ x,
    List.Forall₂ SameSize (s.residuals x (s.modes x)) (t.residuals x (t.modes x))
  vanishes : ∀ x, s.VanishesAt x ↔ t.VanishesAt x

variable {s t : System Float n k}

theorem residuals_selected (s : System Float n k) (x : State Float n k) :
    s.residuals x (s.modes x) = s.terms.flatMap (Term.selected s.options x.placement) := by
  unfold residuals modes
  induction s.terms with
  | nil => rfl
  | cons t ts ih =>
    rw [List.map_cons, List.zip_cons_cons, List.flatMap_cons, List.flatMap_cons, ih]
    rfl

theorem forall_isZero_iff {xs ys : List Float} (h : List.Forall₂ SameSize xs ys) :
    (∀ r ∈ xs, (r == (zero : Float)) = true) ↔ ∀ r ∈ ys, (r == (zero : Float)) = true := by
  induction h with
  | nil => rfl
  | cons hab _ ih => rw [List.forall_mem_cons, List.forall_mem_cons, hab.isZero_iff, ih]

theorem asksSame_of_terms (hoptions : s.options = t.options)
    (h : List.Forall₂ (fun a b => a.equation.Turned b.equation ∧ a.EqualTargets b) s.terms
      t.terms) : s.AsksSame t := by
  have hresiduals : ∀ x,
      List.Forall₂ SameSize (s.residuals x (s.modes x)) (t.residuals x (t.modes x)) := by
    intro x
    rw [residuals_selected, residuals_selected, hoptions]
    exact List.rel_flatMap h fun a b hab =>
      (hab.1.sameSizes_of_beq hab.2 t.options x.placement).2
  refine ⟨fun x => ?_, hresiduals, fun x => forall_isZero_iff (hresiduals x)⟩
  rw [← List.forall₂_eq_eq_eq]
  exact List.rel_map (fun a b hab => (hab.1.sameSizes_of_beq hab.2 t.options x.placement).1) h

variable {vs : Vector (Vertex Float) n} {edges : List Edge} {rs : Vector (Ring Float) k}
  {o : Options Float} {c d : Constraint} {sc sd : System Float n k}

/-- The residuals of a compiled system vanish if those of all its terms do. -/
theorem vanishesAt_iff {cs : List Constraint} (h : compile vs edges rs cs o = .ok s)
    (x : State Float n k) : s.VanishesAt x ↔
      ∀ t ∈ s.terms, ∀ r ∈ t.selected o x.placement, (r == (zero : Float)) = true := by
  obtain ⟨_, _, hoptions, _⟩ := compile_eq_ok h
  rw [VanishesAt, residuals_selected, hoptions, List.forall_mem_flatMap]

theorem length_flatMap_selected {ts us : List (Term Float n k)} {c d : Constraint}
    (h : List.Forall₂ (Term.Doubles c d) ts us) {o : Options Float} {x : Placement Float n k} :
    (ts.flatMap (Term.selected o x)).length = (us.flatMap (Term.selected o x)).length := by
  induction h with
  | nil => rfl
  | cons htu _ ih =>
    rw [List.flatMap_cons, List.flatMap_cons, List.length_append, List.length_append, ih,
      Term.length_selected htu.akin htu.targets]

section Alone

variable (hc : compile vs edges rs [c] o = .ok sc) (hd : compile vs edges rs [d] o = .ok sd)
  (henabled : c.isEnabled = d.isEnabled) (h : c.SameSubject d)

include hc hd henabled h

theorem pinned_le (i : Fin n) (hi : sc.pinned.get i = true) : sd.pinned.get i = true := by
  obtain ⟨_, _, _, hcpinned⟩ := compile_eq_ok hc
  obtain ⟨_, _, _, hdpinned⟩ := compile_eq_ok hd
  rw [hdpinned]
  refine ((hcpinned i).mp hi).imp_right ?_
  rintro ⟨c', hc', hon, hfixes⟩
  rw [List.mem_singleton.mp hc'] at hon hfixes
  exact ⟨d, List.mem_singleton_self d, henabled ▸ hon, h.fixes hfixes⟩

theorem pinned_eq : sc.pinned = sd.pinned :=
  Vector.ext fun i hi => Bool.eq_iff_iff.mpr
    ⟨pinned_le hc hd henabled h ⟨i, hi⟩, pinned_le hd hc henabled.symm h.symm ⟨i, hi⟩⟩

variable (htarget : c.EqualTargets d)

include htarget

/-- Two constraints that say the same, both enabled or both not, give one term each or none. -/
theorem compile_doubles : List.Forall₂ (Term.Doubles c d) sc.terms sd.terms := by
  have hcterms := compile_terms hc
  have hdterms := compile_terms hd
  have heffective : d.isEffective = c.isEffective := by
    rw [Constraint.isEffective, Constraint.isEffective, henabled, Constraint.rule?,
      Constraint.rule?, h.kind, h.counts]
  cases hcase : c.isEffective with
  | false =>
    rw [List.filter_cons_of_neg (Bool.not_eq_true _ ▸ hcase), List.filter_nil,
      List.forall₂_nil_left_iff] at hcterms
    rw [List.filter_cons_of_neg (Bool.not_eq_true _ ▸ heffective.trans hcase), List.filter_nil,
      List.forall₂_nil_left_iff] at hdterms
    rw [hcterms, hdterms]
    exact .nil
  | true =>
    rw [List.filter_cons_of_pos hcase, List.filter_nil] at hcterms
    rw [List.filter_cons_of_pos (heffective.trans hcase), List.filter_nil] at hdterms
    obtain ⟨t, _, ht, hnil, hct⟩ := List.forall₂_cons_left_iff.mp hcterms
    obtain rfl := List.forall₂_nil_left_iff.mp hnil
    obtain ⟨u, _, hu, hnil, hdu⟩ := List.forall₂_cons_left_iff.mp hdterms
    obtain rfl := List.forall₂_nil_left_iff.mp hnil
    rw [hct, hdu]
    exact .cons (ht.doubles hu h htarget) .nil

theorem length_residuals_eq (x : State Float n k) :
    (sc.residuals x (sc.modes x)).length = (sd.residuals x (sd.modes x)).length := by
  rw [residuals_selected, residuals_selected, (compile_eq_ok hc).2.2.1, (compile_eq_ok hd).2.2.1]
  exact length_flatMap_selected (compile_doubles hc hd henabled h htarget)

theorem asksSame (hreads : c.ReadsAlike d) : sc.AsksSame sd :=
  asksSame_of_terms ((compile_eq_ok hc).2.2.1.trans (compile_eq_ok hd).2.2.1.symm)
    ((compile_doubles hc hd henabled h htarget).imp fun _ _ h => ⟨h.turned hreads, h.targets⟩)

end Alone

/-- What one system asks for is part of what another asks for. -/
structure Within (s t : System Float n k) : Prop where
  pinned_or : ∀ i, (t.pinned.get i || s.pinned.get i) = t.pinned.get i
  vanishes : ∀ x, t.VanishesAt x → s.VanishesAt x

/-- What a constraint asks for by itself is part of what it asks for among others. -/
theorem compile_mem {cs : List Constraint} (h : compile vs edges rs cs o = .ok s) (hc : c ∈ cs) :
    ∃ sc, compile vs edges rs [c] o = .ok sc ∧ sc.Within s := by
  obtain ⟨as, bs, rfl⟩ := List.append_of_mem hc
  obtain ⟨sa, srest, _, hrest, hterms, hpinned⟩ := compile_append h
  obtain ⟨sc, sb, hsc, _, hrestTerms, hrestPinned⟩ :=
    compile_append (show compile vs edges rs ([c] ++ bs) o = .ok srest from hrest)
  refine ⟨sc, hsc, fun i => ?_, fun x hx => ?_⟩
  · rw [hpinned, hrestPinned]
    cases sc.pinned.get i <;> simp
  · rw [vanishesAt_iff h, hterms, hrestTerms] at hx
    rw [vanishesAt_iff hsc]
    exact fun t ht => hx t (List.mem_append_right _ (List.mem_append_left _ ht))

theorem vanishesAt_append {as bs : List Constraint} {sa sb : System Float n k}
    (h : compile vs edges rs (as ++ bs) o = .ok s) (ha : compile vs edges rs as o = .ok sa)
    (hb : compile vs edges rs bs o = .ok sb) (hterms : s.terms = sa.terms ++ sb.terms)
    (x : State Float n k) : s.VanishesAt x ↔ sa.VanishesAt x ∧ sb.VanishesAt x := by
  rw [vanishesAt_iff h, hterms, List.forall_mem_append, ← vanishesAt_iff ha, ← vanishesAt_iff hb]

end System

/-- **A refused duplicate adds nothing, if it has the same references in front.** Of two enabled
constraints that say the same, with equal targets, each alone pins the same points and gives equally
many residuals at every state. If the references that their kind takes from the front are the same,
the modes are the same and the residuals of the same sizes, so that they vanish together; and then
the second, put at the end of constraints with the first among them, neither pins another point nor
asks for anything that these do not. The references in front are the same whenever a radius names
one circle only, and a distance between points two points only. -/
theorem refused_duplicate_adds_nothing {c d : Constraint} (hnames : ∀ q ∈ c.references, q.IsName)
    (hc : c.isEnabled = true) (hd : d.isEnabled = true) (hsame : c.sameAs d = .ok true)
    (htarget : c.EqualTargets d) (vs : Vector (Vertex Float) n) (edges : List Edge)
    (rs : Vector (Ring Float) k) (o : Options Float) :
    (∀ sc sd, System.compile vs edges rs [c] o = .ok sc →
      System.compile vs edges rs [d] o = .ok sd → sc.pinned = sd.pinned ∧
      (∀ x, (sc.residuals x (sc.modes x)).length = (sd.residuals x (sd.modes x)).length) ∧
      (c.ReadsAlike d → sc.AsksSame sd)) ∧
    (∀ cs s s', c ∈ cs → c.ReadsAlike d → System.compile vs edges rs cs o = .ok s →
      System.compile vs edges rs (cs ++ [d]) o = .ok s' →
      s'.pinned = s.pinned ∧ ∀ x, s'.VanishesAt x ↔ s.VanishesAt x) ∧
    ((c.kind = .radius → c.circles.length ≤ 1) →
      (c.kind = .distance → c.counts.SpansPoints → c.points.length ≤ 2) → c.ReadsAlike d) := by
  obtain ⟨hkind, hpoints, hlines, hcircles⟩ := Constraint.sameAs_eq_true hnames hsame
  have hsubject : c.SameSubject d := ⟨hkind, hpoints, hlines, hcircles⟩
  have henabled : c.isEnabled = d.isEnabled := hc.trans hd.symm
  refine ⟨fun sc sd hsc hsd => ⟨?_, fun x => ?_, fun hreads => ?_⟩,
    fun cs s s' hmem hreads hs hs' => ?_, hsubject.readsAlike⟩
  · exact System.pinned_eq hsc hsd henabled hsubject
  · exact System.length_residuals_eq hsc hsd henabled hsubject htarget x
  · exact System.asksSame hsc hsd henabled hsubject htarget hreads
  · obtain ⟨s₁, sd, hs₁, hsd, hterms, hadded⟩ := System.compile_append hs'
    cases hs.symm.trans hs₁
    obtain ⟨sc, hsc, hwithin⟩ := System.compile_mem hs hmem
    have hpinned := System.pinned_eq hsc hsd henabled hsubject
    have hasks := System.asksSame hsc hsd henabled hsubject htarget hreads
    refine ⟨Vector.ext fun i hi => (hadded ⟨i, hi⟩).trans ?_, fun x => ?_⟩
    · exact hpinned ▸ hwithin.pinned_or ⟨i, hi⟩
    · rw [System.vanishesAt_append hs' hs hsd hterms, and_iff_left_iff_imp, ← hasks.vanishes x]
      exact hwithin.vanishes x

/-! ## References in front -/

/-- A system of three points in a row, a large circle around the first of them and a small one
around the second. -/
def inRow (cs : List Constraint) : Except Error (System Float 3 2) :=
  System.compile
    #v[{ id := .text "p", x := 0.0, y := 0.0 }, { id := .text "q", x := 5.0, y := 0.0 },
      { id := .text "r", x := 9.0, y := 0.0 }]
    []
    #v[{ id := .text "a", center := .text "p", radius := 5.0 },
      { id := .text "b", center := .text "q", radius := 3.0 }]
    cs .standard

/-- The distance of the first two of three points. -/
def reach (p q r : String) : Constraint where
  kind := .distance
  id := .text "reach"
  points := [.text p, .text q, .text r]
  value := .float 5.0

/-- The radius of the first of two circles. -/
def sizing (c d : String) : Constraint where
  kind := .radius
  id := .text "sizing"
  circles := [.text c, .text d]
  value := .float 5.0

theorem reach_comparable (p q r : String) : (reach p q r).Comparable := by
  refine ⟨fun name hname => ?_, .inr ⟨_, rfl⟩⟩
  have hpoints : name ∈ [p, q, r].map Value.text := hname
  obtain ⟨text, _, rfl⟩ := List.mem_map.mp hpoints
  exact ⟨text, rfl⟩

theorem sizing_comparable (c d : String) : (sizing c d).Comparable := by
  refine ⟨fun name hname => ?_, .inr ⟨_, rfl⟩⟩
  have hcircles : name ∈ [c, d].map Value.text := hname
  obtain ⟨text, _, rfl⟩ := List.mem_map.mp hcircles
  exact ⟨text, rfl⟩

theorem five_sameGoal : Float.abs ((5.0 : Float) - 5.0) < Constraint.targetTolerance := by
  decide +kernel

theorem reach_sameAs {p q r p' q' r' : String} (h : [p, q, r].Perm [p', q', r']) :
    (reach p q r).sameAs (reach p' q' r') = .ok true := by
  refine (Constraint.sameAs_eq_true_iff (reach_comparable _ _ _) (reach_comparable _ _ _)).mpr ?_
  exact ⟨⟨rfl, h.map Value.text, .refl _, .refl _⟩, fun _ => five_sameGoal⟩

theorem sizing_sameAs (c d : String) : (sizing c d).sameAs (sizing d c) = .ok true := by
  refine (Constraint.sameAs_eq_true_iff (sizing_comparable _ _) (sizing_comparable _ _)).mpr ?_
  exact ⟨⟨rfl, .refl _, .refl _, .swap _ _ _⟩, fun _ => five_sameGoal⟩

/-- The first two of three points may be given in either order: one of the two distances is enough.
-/
theorem refused_duplicate_adds_nothing_swapped :
    (reach "p" "q" "r").sameAs (reach "q" "p" "r") = .ok true ∧
    ∃ sc sd s', inRow [reach "p" "q" "r"] = .ok sc ∧ inRow [reach "q" "p" "r"] = .ok sd ∧
      inRow [reach "p" "q" "r", reach "q" "p" "r"] = .ok s' ∧
      sc.pinned = sd.pinned ∧ sc.AsksSame sd ∧
      s'.pinned = sc.pinned ∧ ∀ x, s'.VanishesAt x ↔ sc.VanishesAt x := by
  have hsame : (reach "p" "q" "r").sameAs (reach "q" "p" "r") = .ok true :=
    reach_sameAs (.swap _ _ _)
  have hnames : ∀ name ∈ (reach "p" "q" "r").references, name.IsName := fun name hname =>
    ((reach_comparable _ _ _).names name hname).isName
  have htarget : (reach "p" "q" "r").EqualTargets (reach "q" "p" "r") := by
    intro _ a b ha hb
    cases ha
    cases hb
    decide +kernel
  have hreads : (reach "p" "q" "r").ReadsAlike (reach "q" "p" "r") :=
    ⟨nofun, fun _ _ => .swap _ _ _⟩
  obtain ⟨s', hs'⟩ : ∃ s', inRow [reach "p" "q" "r", reach "q" "p" "r"] = .ok s' :=
    exists_eq_ok_of_isOk (by decide +kernel)
  obtain ⟨sc, sd, hsc, hsd, _⟩ := System.compile_append
    (show inRow ([reach "p" "q" "r"] ++ [reach "q" "p" "r"]) = .ok s' from hs')
  obtain ⟨halone, hadded, _⟩ :=
    refused_duplicate_adds_nothing hnames rfl rfl hsame htarget _ [] _ .standard
  obtain ⟨hpinned, _, hasks⟩ := halone sc sd hsc hsd
  obtain ⟨hpinned', hvanishes⟩ := hadded _ sc s' (List.mem_singleton_self _) hreads hsc hs'
  exact ⟨hsame, sc, sd, s', hsc, hsd, hs', hpinned, hasks hreads, hpinned', hvanishes⟩

/-- What two constraints that say the same ask for is not the same: both are enabled, have one
target and compile, and where the points and circles are given the residuals of the first vanish and
those of the second do not. -/
def AsksMore (c d : Constraint) : Prop :=
  c.isEnabled = true ∧ d.isEnabled = true ∧ c.sameAs d = .ok true ∧
    (∃ a : Float, c.target = .ok a ∧ d.target = .ok a) ∧
    ∃ sc sd, inRow [c] = .ok sc ∧ inRow [d] = .ok sd ∧
      sc.VanishesAt sc.initial ∧ ¬ sd.VanishesAt sc.initial

theorem exists_inRow {cs ds : List Constraint} {P : System Float 3 2 → System Float 3 2 → Prop}
    [∀ s t, Decidable (P s t)]
    (h : (match inRow cs, inRow ds with
      | .ok sc, .ok sd => decide (P sc sd)
      | _, _ => false) = true) :
    ∃ sc sd, inRow cs = .ok sc ∧ inRow ds = .ok sd ∧ P sc sd := by
  split at h
  · rename_i sc sd hc hd
    exact ⟨sc, sd, hc, hd, of_decide_eq_true h⟩
  · cases h

/-- With the other circle in front a radius sizes the other circle, and with another point in front
a distance is that of other points. -/
theorem duplicates_ask_more :
    AsksMore (sizing "a" "b") (sizing "b" "a") ∧
    AsksMore (reach "p" "q" "r") (reach "r" "q" "p") :=
  ⟨⟨rfl, rfl, sizing_sameAs _ _, ⟨5.0, rfl, rfl⟩, exists_inRow (by decide +kernel)⟩,
    ⟨rfl, rfl, reach_sameAs (List.reverse_perm [_, _, _]), ⟨5.0, rfl, rfl⟩,
      exists_inRow (by decide +kernel)⟩⟩

end Drafting
