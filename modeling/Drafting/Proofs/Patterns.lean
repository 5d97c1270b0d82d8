import Drafting.Constraint.Make
import Drafting.Proofs.Dangling
import Drafting.Proofs.Evaluation

/-!
What compiling produces. The patterns of a kind of constraints stand in a table: each rule has a test
on the numbers of points, lines and circles and an equation between the first of them, and of the
rules that fit the first decides. A rule that fits finds the things that its equation needs.

A problem whose enabled constraints have referents compiles to one term for each of them that some
rule fits, in their order. Its mask is set at the coordinates of the points it holds, and nowhere
else. Both follow the list of constraints: terms of two lists one after the other are the terms of
the first and then those of the second, and a point is pinned by both if it is by one of them. Every
constraint that a drawing program offers, but for those that fix, gives a term.
-/

namespace Drafting

variable {α : Type} {n k : Nat}

/-! ## The table of patterns -/

/-- How many points, lines and circles a constraint refers to. -/
structure Counts where
  points : Nat
  lines : Nat
  circles : Nat
  deriving DecidableEq, Repr

/-- The points, lines and circles that a constraint refers to. -/
structure Operands (n k : Nat) where
  points : List (Fin n)
  lines : List (LineRef n)
  circles : List (CircleRef n k)

namespace Operands

def counts (x : Operands n k) : Counts := ⟨x.points.length, x.lines.length, x.circles.length⟩

variable (x : Operands n k)

/-- An equation between the first two points. -/
def twoPoints (f : Fin n → Fin n → Equation n k) : Option (Equation n k) :=
  return f (← x.points[0]?) (← x.points[1]?)

/-- An equation on the first line. -/
def oneLine (f : LineRef n → Equation n k) : Option (Equation n k) :=
  return f (← x.lines[0]?)

/-- An equation between the first two lines. -/
def twoLines (f : LineRef n → LineRef n → Equation n k) : Option (Equation n k) :=
  return f (← x.lines[0]?) (← x.lines[1]?)

/-- An equation on the first circle. -/
def oneCircle (f : CircleRef n k → Equation n k) : Option (Equation n k) :=
  return f (← x.circles[0]?)

/-- An equation between the first two circles. -/
def twoCircles (f : CircleRef n k → CircleRef n k → Equation n k) : Option (Equation n k) :=
  return f (← x.circles[0]?) (← x.circles[1]?)

/-- An equation between the first point and the first line. -/
def pointAndLine (f : Fin n → LineRef n → Equation n k) : Option (Equation n k) :=
  return f (← x.points[0]?) (← x.lines[0]?)

/-- An equation between the first point and the first circle. -/
def pointAndCircle (f : Fin n → CircleRef n k → Equation n k) : Option (Equation n k) :=
  return f (← x.points[0]?) (← x.circles[0]?)

/-- An equation between the first line and the first circle. -/
def lineAndCircle (f : LineRef n → CircleRef n k → Equation n k) : Option (Equation n k) :=
  return f (← x.lines[0]?) (← x.circles[0]?)

end Operands

/-- A pattern and the equation that it stands for. -/
structure Rule where
  fits : Counts → Bool
  equation? : {n k : Nat} → Operands n k → Option (Equation n k)

open Operands in
/-- The rules of a kind of constraints. The first that fits decides. -/
def ConstraintKind.rules : ConstraintKind → List Rule
  | .horizontal =>
    [⟨fun s => s.points == 2, (twoPoints · .levelPoints)⟩,
      ⟨fun s => s.lines == 1, (oneLine · .levelLine)⟩]
  | .vertical =>
    [⟨fun s => s.points == 2, (twoPoints · .plumbPoints)⟩,
      ⟨fun s => s.lines == 1, (oneLine · .plumbLine)⟩]
  | .coincident =>
    [⟨fun s => s.points == 2, (twoPoints · .samePoint)⟩,
      ⟨fun s => s.points == 1 && s.lines == 1, (pointAndLine · .pointOnLine)⟩,
      ⟨fun s => s.circles == 1 && s.lines == 1, (lineAndCircle · fun l c => .centerOnLine c l)⟩,
      ⟨fun s => s.points == 1 && s.circles == 1, (pointAndCircle · .pointAtCenter)⟩,
      ⟨fun s => s.circles == 2, (twoCircles · .sameCenter)⟩]
  | .distance =>
    [⟨fun s => s.lines == 1 && s.points == 0 && s.circles == 0, (oneLine · .lineLength)⟩,
      ⟨fun s => s.lines == 1 && s.circles == 1, (lineAndCircle · .lineCircleDistance)⟩,
      ⟨fun s => s.circles == 2, (twoCircles · .circleDistance)⟩,
      ⟨fun s => 2 ≤ s.points, (twoPoints · .pointDistance)⟩,
      ⟨fun s => s.points == 1 && s.lines == 1, (pointAndLine · .pointLineDistance)⟩]
  | .radius => [⟨fun s => 1 ≤ s.circles, (oneCircle · .radius)⟩]
  | .angle =>
    [⟨fun s => s.lines == 2, (twoLines · .angleBetween)⟩,
      ⟨fun s => s.lines == 1, (oneLine · .lineAngle)⟩]
  | .parallel => [⟨fun s => s.lines == 2, (twoLines · .parallel)⟩]
  | .perpendicular => [⟨fun s => s.lines == 2, (twoLines · .perpendicular)⟩]
  | .equalLength => [⟨fun s => s.lines == 2, (twoLines · .equalLength)⟩]
  | .tangent =>
    [⟨fun s => s.lines == 1 && s.circles == 1, (lineAndCircle · .tangentLine)⟩,
      ⟨fun s => s.circles == 2, (twoCircles · .tangentCircles)⟩,
      ⟨fun s => s.points == 1 && s.circles == 1, (pointAndCircle · .pointOnCircle)⟩]
  | .midpoint => [⟨fun s => s.points == 1 && s.lines == 1, (pointAndLine · .midpoint)⟩]
  | .concentric => [⟨fun s => s.circles == 2, (twoCircles · .sameCenter)⟩]
  | .fixed => []

/-- The rule of a kind that decides about things of given numbers. -/
def ConstraintKind.rule? (kind : ConstraintKind) (s : Counts) : Option Rule :=
  kind.rules.find? (·.fits s)

/-- Compiling takes the equation of the first rule that fits, and that rule has one. -/
theorem ConstraintKind.map_equation? (kind : ConstraintKind) (x : Operands n k) :
    (kind.equation? x.points x.lines x.circles).map some =
      (kind.rule? x.counts).map fun rule => rule.equation? x := by
  obtain ⟨ps, ls, cs⟩ := x
  -- a list is taken apart as far as some pattern of the kind can tell it from others
  cases kind with
  | horizontal | vertical =>
    rcases ps with _ | ⟨p, _ | ⟨q, _ | ⟨r, ps⟩⟩⟩ <;> rcases ls with _ | ⟨l, _ | ⟨m, ls⟩⟩ <;> rfl
  | coincident =>
    rcases ps with _ | ⟨p, _ | ⟨q, _ | ⟨r, ps⟩⟩⟩ <;> rcases ls with _ | ⟨l, _ | ⟨m, ls⟩⟩ <;>
      rcases cs with _ | ⟨c, _ | ⟨d, _ | ⟨e, cs⟩⟩⟩ <;> rfl
  | distance =>
    rcases ps with _ | ⟨p, _ | ⟨q, ps⟩⟩ <;> rcases ls with _ | ⟨l, _ | ⟨m, ls⟩⟩ <;>
      rcases cs with _ | ⟨c, _ | ⟨d, _ | ⟨e, cs⟩⟩⟩ <;> rfl
  | radius => rcases cs with _ | ⟨c, cs⟩ <;> rfl
  | angle | parallel | perpendicular | equalLength =>
    rcases ls with _ | ⟨l, _ | ⟨m, _ | ⟨o, ls⟩⟩⟩ <;> rfl
  | tangent =>
    rcases ps with _ | ⟨p, _ | ⟨q, ps⟩⟩ <;> rcases ls with _ | ⟨l, _ | ⟨m, ls⟩⟩ <;>
      rcases cs with _ | ⟨c, _ | ⟨d, _ | ⟨e, cs⟩⟩⟩ <;> rfl
  | midpoint =>
    rcases ps with _ | ⟨p, _ | ⟨q, ps⟩⟩ <;> rcases ls with _ | ⟨l, _ | ⟨m, ls⟩⟩ <;> rfl
  | concentric => rcases cs with _ | ⟨c, _ | ⟨d, _ | ⟨e, cs⟩⟩⟩ <;> rfl
  | fixed => rfl

/-- A rule that decides finds what its equation needs. -/
theorem ConstraintKind.equation?_of_rule? {kind : ConstraintKind} {x : Operands n k} {rule : Rule}
    (h : kind.rule? x.counts = some rule) :
    ∃ e, kind.equation? x.points x.lines x.circles = some e ∧ rule.equation? x = some e := by
  have hmap := kind.map_equation? x
  rw [h, Option.map_some, Option.map_eq_some_iff] at hmap
  obtain ⟨e, he, hrule⟩ := hmap
  exact ⟨e, he, hrule.symm⟩

theorem ConstraintKind.equation?_eq_none {kind : ConstraintKind} {x : Operands n k}
    (h : kind.rule? x.counts = none) : kind.equation? x.points x.lines x.circles = none := by
  have hmap := kind.map_equation? x
  rw [h, Option.map_none] at hmap
  exact Option.map_eq_none_iff.mp hmap

/-! ## Terms -/

/-- How many things of each sort a constraint names. -/
def Constraint.counts (c : Constraint) : Counts :=
  ⟨c.points.length, c.lines.length, c.circles.length⟩

/-- The rule that decides about a constraint. Constraints that fix have none. -/
def Constraint.rule? (c : Constraint) : Option Rule := c.kind.rule? c.counts

/-- Whether a constraint counts for a term: it is enabled, and some rule decides about it. -/
def Constraint.isEffective (c : Constraint) : Bool := c.isEnabled && c.rule?.isSome

/-- A term is that of a constraint: it has the target of the constraint, and the equation of the rule
that decides about it on what the names of the constraint resolve to. -/
structure Term.IsOf [Scalar α] (vs : Vector (Vertex α) n) (edges : List Edge)
    (rs : Vector (Ring α) k) (c : Constraint) (t : Term α n k) : Prop where
  constraint : t.constraint = c
  target : c.target = .ok t.target
  equation : ∃ rule x, c.rule? = some rule ∧
    c.ResolvesTo vs edges rs x.points x.lines x.circles ∧ rule.equation? x = some t.equation

section Terms

variable {vs : Vector (Vertex α) n} {edges : List Edge} {rs : Vector (Ring α) k}
  {c : Constraint} {part : Contribution α n k}

theorem Constraint.ResolvesTo.counts {points : List (Fin n)} {lines : List (LineRef n)}
    {circles : List (CircleRef n k)} (h : c.ResolvesTo vs edges rs points lines circles) :
    c.counts = (⟨points, lines, circles⟩ : Operands n k).counts := by
  rw [Constraint.counts, Operands.counts, h.points.length_eq, h.lines.length_eq,
    h.circles.length_eq]

variable [Scalar α]

/-- A constraint about which a rule decides gives its term. -/
theorem Constraint.compile_some (h : c.compile vs edges rs = .ok part)
    (hrule : c.rule?.isSome = true) :
    ∃ t, part.term? = some t ∧ t.IsOf vs edges rs c := by
  obtain ⟨rule, hrule⟩ := Option.isSome_iff_exists.mp hrule
  obtain ⟨points, lines, circles, hnames, hpart⟩ := compile_cases h
  have hcounts : c.kind.rule? (⟨points, lines, circles⟩ : Operands n k).counts = some rule := by
    rw [← hnames.counts]
    exact hrule
  obtain ⟨e, he, heq⟩ := ConstraintKind.equation?_of_rule? hcounts
  obtain ⟨hkind, _⟩ | ⟨_, e', target, he', htarget, rfl⟩ | ⟨_, hnone, _⟩ := hpart
  · rw [rule?, hkind] at hrule
    cases hrule
  · cases he.symm.trans he'
    exact ⟨_, rfl, rfl, htarget, rule, ⟨points, lines, circles⟩, hrule, hnames, heq⟩
  · cases he.symm.trans hnone

/-- A constraint about which no rule decides gives no term. -/
theorem Constraint.compile_none (h : c.compile vs edges rs = .ok part)
    (hrule : c.rule?.isSome = false) : part.term? = none := by
  obtain ⟨points, lines, circles, hnames, hpart⟩ := compile_cases h
  have hcounts : c.kind.rule? (⟨points, lines, circles⟩ : Operands n k).counts = none := by
    rw [← hnames.counts]
    exact Option.isNone_iff_eq_none.mp (Option.isSome_eq_false_iff.mp hrule)
  obtain ⟨_, rfl⟩ | ⟨_, e, _, he, _⟩ | ⟨_, _, rfl⟩ := hpart
  · rfl
  · cases he.symm.trans (ConstraintKind.equation?_eq_none hcounts)
  · rfl

end Terms

/-- What was made of the items of a list one by one, and kept of those with a property. -/
theorem forall₂_filterMap {β γ δ : Type} {R : β → γ → Prop} {S : β → δ → Prop} {keep : β → Bool}
    {f : γ → Option δ} {bs : List β} {cs : List γ} (h : List.Forall₂ R bs cs)
    (hsome : ∀ b c, R b c → keep b = true → ∃ d, f c = some d ∧ S b d)
    (hnone : ∀ b c, R b c → keep b = false → f c = none) :
    List.Forall₂ S (bs.filter keep) (cs.filterMap f) := by
  induction h with
  | nil => exact .nil
  | @cons b c bs cs hbc _ ih =>
    cases hkeep : keep b with
    | true =>
      obtain ⟨d, hd, hS⟩ := hsome b c hbc hkeep
      rw [List.filter_cons_of_pos hkeep, List.filterMap_cons_some hd]
      exact .cons hS ih
    | false =>
      rw [List.filter_cons_of_neg (by rw [hkeep]; nofun), List.filterMap_cons_none
        (hnone b c hbc hkeep)]
      exact ih

/-! ## Systems -/

namespace System

variable {vs : Vector (Vertex α) n} {edges : List Edge} {rs : Vector (Ring α) k}
  {o : Options α} {s sa sb : System α n k}

theorem mask_get (i : Fin (2 * n + k)) : s.mask.get i = true ↔
    ∃ j : Fin n, (i.val = 2 * j.val ∨ i.val = 2 * j.val + 1) ∧ s.pinned.get j = true := by
  rw [mask, get_ofFn]
  constructor
  · intro h
    have hi := isPinned_lt h
    rw [isPinned, dif_pos hi] at h
    exact ⟨_, by dsimp only; omega, h⟩
  · rintro ⟨j, hij, hj⟩
    have hi : i.val < 2 * n := by omega
    have hhalf : i.val / 2 = j.val := by omega
    rw [isPinned, dif_pos hi]
    simpa only [hhalf] using hj

/-- A mask follows the pins. -/
theorem mask_get_or (h : ∀ i, s.pinned.get i = (sa.pinned.get i || sb.pinned.get i))
    (i : Fin (2 * n + k)) : s.mask.get i = (sa.mask.get i || sb.mask.get i) := by
  simp only [mask, get_ofFn, isPinned]
  split
  · exact h _
  · rfl

variable [Scalar α]

/-- The terms of a system are those of the effective constraints, in their order. -/
theorem compile_terms {cs : List Constraint} (h : compile vs edges rs cs o = .ok s) :
    List.Forall₂ (fun c t => t.IsOf vs edges rs c)
      (cs.filter (·.isEffective)) s.terms := by
  obtain ⟨_, _, h⟩ := bind_eq_ok.mp h
  obtain ⟨parts, hparts, h⟩ := bind_eq_ok.mp h
  cases h
  have hterms : List.Forall₂ (fun c t => t.IsOf vs edges rs c)
      ((cs.filter (·.isEnabled)).filter (·.rule?.isSome)) (parts.filterMap (·.term?)) :=
    forall₂_filterMap (mapM_eq_ok.mp hparts) (fun c part h => c.compile_some h)
      fun c part h => c.compile_none h
  rw [List.filter_filter] at hterms
  simpa only [Constraint.isEffective, Bool.and_comm] using hterms

/-- A system of two lists of constraints has the terms of the first and then those of the second, and
pins what either of them pins. -/
theorem compile_append {as bs : List Constraint} (h : compile vs edges rs (as ++ bs) o = .ok s) :
    ∃ sa sb, compile vs edges rs as o = .ok sa ∧ compile vs edges rs bs o = .ok sb ∧
      s.terms = sa.terms ++ sb.terms ∧
      ∀ i, s.pinned.get i = (sa.pinned.get i || sb.pinned.get i) := by
  obtain ⟨keys, hkeys, h⟩ := bind_eq_ok.mp h
  obtain ⟨parts, hparts, h⟩ := bind_eq_ok.mp h
  cases h
  rw [List.filter_append, List.mapM_append] at hparts
  obtain ⟨pa, hpa, hparts⟩ := bind_eq_ok.mp hparts
  obtain ⟨pb, hpb, hparts⟩ := bind_eq_ok.mp hparts
  cases hparts
  refine ⟨_, _, bind_eq_ok.mpr ⟨keys, hkeys, bind_eq_ok.mpr ⟨pa, hpa, rfl⟩⟩,
    bind_eq_ok.mpr ⟨keys, hkeys, bind_eq_ok.mpr ⟨pb, hpb, rfl⟩⟩, List.filterMap_append, ?_⟩
  intro i
  simp only [get_ofFn, List.flatMap_append, List.contains_append]
  cases (vs.get i).fixed.truthy <;> simp

theorem modes_append (h : s.terms = sa.terms ++ sb.terms) (x : State α n k) :
    s.modes x = sa.modes x ++ sb.modes x := by
  rw [modes, h, List.map_append]
  rfl

theorem residuals_append (h : s.terms = sa.terms ++ sb.terms) (ha : sa.options = s.options)
    (hb : sb.options = s.options) (x : State α n k) {ma mb : List (Option Mode)}
    (hlength : ma.length = sa.terms.length) :
    s.residuals x (ma ++ mb) = sa.residuals x ma ++ sb.residuals x mb := by
  rw [residuals, h, List.zip_append hlength.symm, List.flatMap_append, residuals, residuals, ha, hb]

end System

/-! ## Constraints that are made -/

namespace Constraint

/-- A constraint is made by a constructor for some relation. Fixing is no relation. -/
inductive Made : Constraint → Prop where
  | coincidence (id p q : Value) : Made (coincidence id p q)
  | pointOnLine (id point line : Value) : Made (pointOnLine id point line)
  | horizontal (id line : Value) : Made (horizontal id line)
  | vertical (id line : Value) : Made (vertical id line)
  | parallel (id l m : Value) : Made (parallel id l m)
  | perpendicular (id l m : Value) : Made (perpendicular id l m)
  | equalLength (id l m : Value) : Made (equalLength id l m)
  | concentric (id c d : Value) : Made (concentric id c d)
  | tangentCircles (id c d : Value) : Made (tangentCircles id c d)
  | tangentLine (id line circle : Value) : Made (tangentLine id line circle)
  | pointOnCircle (id point circle : Value) : Made (pointOnCircle id point circle)
  | midpoint (id point line : Value) : Made (midpoint id point line)
  | length (id line value : Value) : Made (length id line value)
  | distance (id p q value : Value) : Made (distance id p q value)
  | distancePointLine (id point line value : Value) : Made (distancePointLine id point line value)
  | distanceLineCircle (id line circle value : Value) :
      Made (distanceLineCircle id line circle value)
  | distanceCircles (id c d value : Value) : Made (distanceCircles id c d value)
  | angle (id l m value : Value) : Made (angle id l m value)
  | lineAngle (id line value : Value) : Made (lineAngle id line value)
  | radius (id circle value : Value) : Made (radius id circle value)

/-- A rule decides about every constraint that is made. -/
theorem Made.isEffective {c : Constraint} (h : c.Made) : c.isEffective = true := by
  cases h <;> rfl

end Constraint

/-! ## Problems -/

namespace Problem

variable {p : Problem}

/-- A well-formed problem that lacks nothing compiles. -/
theorem WellFormed.system_isOk (hp : p.WellFormed)
    (hall : ∀ c ∈ p.constraints, c.isEnabled = true → ¬ c.Lacks p.vertices p.edges p.rings) :
    ∃ s, p.system = .ok s := by
  refine hp.failsFirst.isOk_iff.mpr (by_contra fun hmissing => ?_)
  obtain ⟨c, hc, henabled, hlacks⟩ := missing_ne_nil.mp hmissing
  exact hall c hc henabled hlacks

/-- The mask is set at the coordinates of the points that the problem holds. -/
theorem mask_iff {s : System Float p.vertices.length p.rings.length} (h : p.system = .ok s)
    (i : Fin (2 * p.vertices.length + p.rings.length)) :
    s.mask.get i = true ↔ ∃ j, (i.val = 2 * j ∨ i.val = 2 * j + 1) ∧ p.Holds j := by
  rw [System.mask_get]
  constructor
  · rintro ⟨j, hij, hj⟩
    exact ⟨j.val, hij, (pinned_iff h j).mp hj⟩
  · rintro ⟨j, hij, hj⟩
    exact ⟨⟨j, hj.lt⟩, hij, (pinned_iff h _).mpr hj⟩

theorem WellFormed.perm (hp : p.WellFormed) {cs : List Constraint} (hcs : cs.Perm p.constraints) :
    WellFormed { p with constraints := cs } where
  vertices := hp.vertices
  edges := hp.edges
  rings := hp.rings
  references c hc := hp.references c (hcs.mem_iff.mp hc)
  targets c hc := hp.targets c (hcs.mem_iff.mp hc)

/-- What a problem holds does not depend on the order of its constraints. -/
theorem holds_perm {cs : List Constraint} (hcs : cs.Perm p.constraints) (i : Nat) :
    Holds { p with constraints := cs } i ↔ p.Holds i := by
  simp only [Holds, hcs.mem_iff]

end Problem

/-- **What compiling produces.** A well-formed problem whose enabled constraints lack nothing compiles
to one term for each enabled constraint that some rule of its kind fits, in their order, by the first
such rule. The mask is set at both coordinates of the points that the problem holds and at no radius,
in whatever order the constraints stand. Two lists of constraints one after the other give the terms,
the modes and the residuals of the first and then those of the second, and the mask of both. Every
constraint that is made, and lacks nothing, gives one term. -/
theorem compiled_terms_and_mask (p : Problem) (hp : p.WellFormed)
    (hall : ∀ c ∈ p.constraints, c.isEnabled = true → ¬ c.Lacks p.vertices p.edges p.rings) :
    (∃ s, p.system = .ok s ∧
      List.Forall₂ (fun c t => t.IsOf p.vertexVector p.edges p.ringVector c)
        (p.constraints.filter (·.isEffective)) s.terms ∧
      (∀ i, s.mask.get i = true ↔ ∃ j, (i.val = 2 * j ∨ i.val = 2 * j + 1) ∧ p.Holds j) ∧
      (∀ i, 2 * p.vertices.length ≤ i.val → s.mask.get i = false) ∧
      (∀ cs, cs.Perm p.constraints →
        ∃ s', Problem.system { p with constraints := cs } = .ok s' ∧ s'.mask = s.mask) ∧
      ∀ as bs, p.constraints = as ++ bs → ∃ sa sb,
        Problem.system { p with constraints := as } = .ok sa ∧
        Problem.system { p with constraints := bs } = .ok sb ∧
        s.terms = sa.terms ++ sb.terms ∧
        (∀ i, s.mask.get i = (sa.mask.get i || sb.mask.get i)) ∧
        ∀ x, s.modes x = sa.modes x ++ sb.modes x ∧
          ∀ ma mb, ma.length = sa.terms.length →
            s.residuals x (ma ++ mb) = sa.residuals x ma ++ sb.residuals x mb) ∧
    ∀ c, c.Made → (∀ q ∈ c.references, q.IsName) → (∃ target : Float, c.target = .ok target) →
      ¬ c.Lacks p.vertices p.edges p.rings →
      ∃ s t, Problem.system { p with constraints := [c] } = .ok s ∧ s.terms = [t] ∧
        t.IsOf p.vertexVector p.edges p.ringVector c := by
  constructor
  · obtain ⟨s, hs⟩ := hp.system_isOk hall
    have hmask := Problem.mask_iff hs
    refine ⟨s, hs, System.compile_terms hs, hmask, fun i hi => ?_, fun cs hcs => ?_,
      fun as bs hcs => ?_⟩
    · -- a radius comes after all coordinates
      rw [Bool.eq_false_iff, ne_eq, hmask]
      rintro ⟨j, hij, hj⟩
      have hlt := hj.lt
      omega
    · obtain ⟨s', hs'⟩ := (hp.perm hcs).system_isOk fun c hc => hall c (hcs.mem_iff.mp hc)
      refine ⟨s', hs', Vector.ext fun i hi => ?_⟩
      have hiff : s'.mask.get ⟨i, hi⟩ = true ↔ s.mask.get ⟨i, hi⟩ = true := by
        rw [hmask, Problem.mask_iff hs']
        simp only [Problem.holds_perm hcs]
      exact Bool.eq_iff_iff.mpr hiff
    · have hcompile : System.compile p.vertexVector p.edges p.ringVector (as ++ bs) p.options =
          .ok s := hcs ▸ hs
      obtain ⟨sa, sb, hsa, hsb, hterms, hpinned⟩ := System.compile_append hcompile
      obtain ⟨_, _, hoptions, _⟩ := System.compile_eq_ok hs
      obtain ⟨_, _, hoptionsa, _⟩ := System.compile_eq_ok hsa
      obtain ⟨_, _, hoptionsb, _⟩ := System.compile_eq_ok hsb
      refine ⟨sa, sb, hsa, hsb, hterms, System.mask_get_or hpinned, fun x =>
        ⟨System.modes_append hterms x, fun ma mb hlength => ?_⟩⟩
      exact System.residuals_append hterms (hoptionsa.trans hoptions.symm)
        (hoptionsb.trans hoptions.symm) x hlength
  · intro c hmade hreferences htarget hlacks
    have halone : Problem.WellFormed { p with constraints := [c] } :=
      ⟨hp.vertices, hp.edges, hp.rings,
        fun d hd _ => by rw [List.mem_singleton.mp hd]; exact hreferences,
        fun d hd _ => by rw [List.mem_singleton.mp hd]; exact htarget⟩
    obtain ⟨s, hs⟩ := halone.system_isOk
      fun d hd _ => by rw [List.mem_singleton.mp hd]; exact hlacks
    have hterms : List.Forall₂ (fun c t => t.IsOf p.vertexVector p.edges p.ringVector c)
        ([c].filter (·.isEffective)) s.terms := System.compile_terms hs
    rw [List.filter_cons_of_pos hmade.isEffective, List.filter_nil] at hterms
    obtain ⟨t, ts, ht, hts, hlist⟩ := List.forall₂_cons_left_iff.mp hterms
    rw [List.forall₂_nil_left_iff.mp hts] at hlist
    exact ⟨s, t, hs, hlist, ht⟩

/-- Two points of one name between others, a line, a circle, and constraints that refer to more than
their equations do, that are disabled, that fix, and that fit no pattern. -/
def overlapping : Problem where
  vertices := [{ id := .text "a", x := 0.0, y := 0.0 }, { id := .text "b", x := 4.0, y := 3.0 },
    { id := .text "a", x := 1.0, y := 1.0 },
    { id := .text "d", x := 2.0, y := 2.0, fixed := .int 1 }]
  edges := [⟨.text "l", .text "a", .text "b"⟩]
  rings := [{ id := .text "k", center := .text "b", radius := 1.0 }]
  constraints :=
    [{ kind := .distance, id := .text "gap", points := [.text "a", .text "b"],
        lines := [.text "l"], circles := [.text "k"], value := .float 2.0 },
      { kind := .radius, id := .text "other", circles := [.text "m"], enabled := .null },
      .fixing (.text "hold") (.text "a") (.text "k"),
      { kind := .parallel, id := .text "lonely", lines := [.text "l"] },
      .horizontal (.text "level") (.text "l")]
  options := .standard

theorem overlapping_wellFormed : overlapping.WellFormed where
  vertices := by decide
  edges := by decide
  rings := by decide
  references := by decide
  targets c hc henabled := exists_eq_ok_of_isOk <| by
    revert c
    decide +kernel

/-- The line, by the places of its ends. -/
def overlappingLine : LineRef overlapping.vertices.length := ⟨(0 : Fin 4), (1 : Fin 4)⟩

/-- The circle, by the places of its center and of its radius. -/
def overlappingRing : CircleRef overlapping.vertices.length overlapping.rings.length :=
  ⟨(1 : Fin 4), (0 : Fin 1)⟩

/-- The first constraint is about the line and the circle, although it names two points as well. The
first point with a name, the center of the circle and the point with a flag are pinned, and the
second point with the name is not. Backwards the mask is the same. A midpoint gives one term. -/
theorem compiled_terms_and_mask_overlapping :
    (∃ s, overlapping.system = .ok s ∧
      s.terms.map (·.constraint.id) = [.text "gap", .text "level"] ∧
      s.terms.map (·.equation) = [.lineCircleDistance overlappingLine overlappingRing,
        .levelLine overlappingLine] ∧
      s.mask.toList = [true, true, true, true, false, false, true, true, false] ∧
      ∃ s', Problem.system { overlapping with constraints := overlapping.constraints.reverse } =
        .ok s' ∧ s'.mask = s.mask) ∧
    ∃ s t, Problem.system { overlapping with
        constraints := [.midpoint (.text "mid") (.text "d") (.text "l")] } = .ok s ∧
      s.terms = [t] := by
  have hall : ∀ c ∈ overlapping.constraints, c.isEnabled = true →
      ¬ c.Lacks overlapping.vertices overlapping.edges overlapping.rings := fun c hc henabled h =>
    Problem.missing_ne_nil.mpr ⟨c, hc, henabled, h⟩ rfl
  obtain ⟨⟨s, hs, hterms, _, _, hperm, _⟩, hmade⟩ :=
    compiled_terms_and_mask overlapping overlapping_wellFormed hall
  have hvalues : (match overlapping.system with
      | .ok s => decide (
          s.terms.map (·.equation) = [.lineCircleDistance overlappingLine overlappingRing,
            .levelLine overlappingLine] ∧
          s.mask.toList = [true, true, true, true, false, false, true, true, false])
      | .error _ => false) = true := by decide +kernel
  rw [hs] at hvalues
  obtain ⟨hequations, hmask⟩ := of_decide_eq_true hvalues
  refine ⟨⟨s, hs, ?_, hequations, hmask, hperm _ (List.reverse_perm _)⟩, ?_⟩
  · have hconstraints : overlapping.constraints.filter (·.isEffective) =
        s.terms.map (·.constraint) :=
      List.forall₂_eq_eq_eq ▸
        List.forall₂_map_right_iff.mpr (hterms.imp fun c t ht => ht.constraint.symm)
    have hids := congrArg (List.map (·.id)) hconstraints
    rw [List.map_map] at hids
    exact hids.symm
  · obtain ⟨s, t, hs, ht, _⟩ := hmade _ (.midpoint (.text "mid") (.text "d") (.text "l"))
      (by decide) ⟨0.0, rfl⟩ (Constraint.lacks_iff.not_left.mpr rfl)
    exact ⟨s, t, hs, ht⟩

end Drafting
