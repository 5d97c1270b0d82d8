import Mathlib.Data.List.Perm.Basic
import Drafting.Proofs.Duplicates
import Drafting.Proofs.Suggesting

/-!
Suggestions are accepted as they are. A suggestion goes through two checks that do not know of each
other: the detector asks whether some constraint joins the same two points, or puts the same line
along an axis, and the sketch asks whether some constraint says the same. The first check is the
stricter one. A constraint that says the same as a coincidence joins its points, whatever else
constraints may name, and one that says the same as an axis puts that line along it.

So all suggestions for a new element are stored, in their order, and when suggestions are asked for
again there are none.
-/

namespace Drafting

/-! ## What says the same -/

namespace Constraint

variable {c d : Constraint}

theorem sameNames_perm {xs ys : List Value} (hxs : ∀ x ∈ xs, x.IsName)
    (h : sameNames xs ys = .ok true) : xs.Perm ys := by
  obtain ⟨us, hus, h⟩ := bind_eq_ok.mp h
  obtain ⟨vs, hvs, h⟩ := bind_eq_ok.mp h
  have hxus := Value.sorted_perm hus
  have heq : us = vs := Value.eq_of_names_beq (fun u hu => hxs u (hxus.mem_iff.mp hu))
    (Except.ok.inj h)
  exact hxus.symm.trans (heq ▸ Value.sorted_perm hvs)

/-- Constraints that say the same are of one kind, and name the same things, in whatever order. -/
theorem sameAs_eq_true (hc : ∀ q ∈ c.references, q.IsName) (h : c.sameAs d = .ok true) :
    c.kind = d.kind ∧ c.points.Perm d.points ∧ c.lines.Perm d.lines ∧
      c.circles.Perm d.circles := by
  have hreferences : c.references = c.points ++ c.lines ++ c.circles := rfl
  simp only [hreferences, List.forall_mem_append] at hc
  obtain ⟨⟨hpoints, hlines⟩, hcircles⟩ := hc
  unfold sameAs at h
  split at h
  · cases h
  · rename_i hkind
    obtain ⟨same, hsame, h⟩ := bind_eq_ok.mp h
    cases same with
    | false => cases h
    | true =>
      obtain ⟨points, hsamePoints, hsame⟩ := bind_eq_ok.mp hsame
      cases points with
      | false => cases hsame
      | true =>
        obtain ⟨lines, hsameLines, hsame⟩ := bind_eq_ok.mp hsame
        cases lines with
        | false => cases hsame
        | true =>
          exact ⟨by simpa using hkind, sameNames_perm hpoints hsamePoints,
            sameNames_perm hlines hsameLines, sameNames_perm hcircles hsame⟩

/-- A constraint says something else than one that has no target value, if it is not found to say
the same. -/
theorem sameAs_eq_false (hc : c.NamesTexts) (hd : d.NamesTexts) (hkind : d.kind.isDimension = false)
    (h : ¬ (c.kind = d.kind ∧ c.points.Perm d.points ∧ c.lines.Perm d.lines)) :
    c.sameAs d = .ok false := by
  obtain ⟨same, hsame⟩ := sameAs_isOk hc hd hkind
  cases same with
  | false => exact hsame
  | true =>
    obtain ⟨hkinds, hpoints, hlines, _⟩ := sameAs_eq_true (fun q hq => (hc q hq).isName) hsame
    exact absurd ⟨hkinds, hpoints, hlines⟩ h

theorem coincidence_namesTexts {id p q : Value} (hp : p.IsText) (hq : q.IsText) :
    (coincidence id p q).NamesTexts := by
  intro name hname
  rcases List.mem_pair.mp hname with rfl | rfl
  · exact hp
  · exact hq

/-- **A constraint that says the same as a coincidence joins its points.** -/
theorem sameAs_coincidence {id p q : Value} (hc : c.NamesTexts) (hp : p.IsText) (hq : q.IsText)
    (h : c.joins p q = false) : c.sameAs (coincidence id p q) = .ok false := by
  refine sameAs_eq_false hc (coincidence_namesTexts hp hq) rfl ?_
  rintro ⟨hkind, hpoints, -⟩
  obtain ⟨s, rfl⟩ := hp
  obtain ⟨t, rfl⟩ := hq
  obtain ⟨names, hnames⟩ := Value.exists_texts hc.points
  have hperm : names.Perm [s, t] := by
    rw [hnames] at hpoints
    exact (List.map_perm_map_iff fun a b => Value.text.inj).mp hpoints
  rw [(joins_iff hnames s t).mpr ⟨hkind, hperm⟩] at h
  cases h

/-- Whether a constraint puts exactly one line along an axis. -/
def aligns (c : Constraint) (line : String) : Bool :=
  (c.kind == .horizontal || c.kind == .vertical) && c.lines == [.text line]

/-- **A constraint that says the same as an axis puts that line along it.** -/
theorem sameAs_axis {kind : ConstraintKind} (hkind : kind = .horizontal ∨ kind = .vertical)
    {id : Value} {line : String} (hc : c.NamesTexts) (h : c.aligns line = false) :
    c.sameAs { kind, id, lines := [.text line] } = .ok false := by
  refine sameAs_eq_false hc ?_ ?_ ?_
  · intro q hq
    exact ⟨line, List.mem_singleton.mp hq⟩
  · rcases hkind with rfl | rfl <;> rfl
  · rintro ⟨hsame, -, hlines⟩
    have haligns : c.aligns line = true := by
      rw [aligns, List.perm_singleton.mp hlines, hsame]
      rcases hkind with rfl | rfl <;> simp
    rw [haligns] at h
    cases h

end Constraint

theorem Suggestion.hasAxis_eq (line : String) (cs : List Constraint) :
    hasAxis line cs = cs.any (·.aligns line) := rfl

/-! ## Storing constraints -/

/-- A list of constraints can be put after others: each names enough, and none says the same as any
of the others or as an earlier one. -/
structure Constraint.New (existing cs : List Constraint) : Prop where
  complete : ∀ c ∈ cs, c.isValid = true
  fresh : ∀ c ∈ cs, ∀ d ∈ existing, d.sameAs c = .ok false
  apart : cs.Pairwise fun c d => c.sameAs d = .ok false

namespace Sketch

/-- Constraints that are all new are all stored, in their order. -/
theorem addConstraints_new {s : Sketch} {cs : List Constraint}
    (h : Constraint.New s.constraints cs) :
    s.addConstraints cs =
      ({ s with constraints := s.constraints ++ cs, dirty := s.dirty || !cs.isEmpty },
        .ok ()) := by
  induction cs generalizing s with
  | nil => simp [addConstraints]
  | cons c cs ih =>
    obtain ⟨hvalid, hcomplete⟩ := List.forall_mem_cons.mp h.complete
    obtain ⟨hfresh, hrest⟩ := List.forall_mem_cons.mp h.fresh
    obtain ⟨hlater, hapart⟩ := List.pairwise_cons.mp h.apart
    have hnone : c.duplicateIndex? s.constraints = .ok none :=
      Constraint.duplicateIndex?_eq_none.mpr hfresh
    have hstored : s.addConstraint c =
        ({ s with constraints := s.constraints ++ [c], dirty := true }, .ok (some c)) := by
      simp [addConstraint, hvalid, hnone]
    rw [addConstraints, hstored]
    refine (ih ⟨hcomplete, fun d hd => ?_, hapart⟩).trans (by simp)
    exact List.forall_mem_append.mpr ⟨hrest d hd, by simpa using hlater d hd⟩

end Sketch

/-! ## Suggestions are new -/

namespace Suggestion

variable {α : Type} {issued : Nat} {existing : List Constraint}

theorem joint_mem_told {ps : List (Anchor α × Vertex α)} {p : Anchor α × Vertex α} (hp : p ∈ ps)
    (hemit : p.1.emit = true) : ∃ id, joint id p ∈ (told issued ps).constraints := by
  have hemitted : p ∈ ps.filter (·.1.emit) := List.mem_filter.mpr ⟨hp, hemit⟩
  obtain ⟨i, hi, rfl⟩ := List.getElem_of_mem hemitted
  exact ⟨_, List.mem_mapIdx.mpr ⟨i, hi, rfl⟩⟩

theorem joint_joins_self (id : Value) {p : Anchor α × Vertex α} (hp : p.2.id.IsText) :
    (joint id p).joins (.text p.1.id) p.2.id = true := by
  obtain ⟨name, hname⟩ := hp
  have hpoints : (joint id p).points = [p.1.id, name].map .text := by
    rw [joint, hname]
    rfl
  rw [hname]
  exact (Constraint.joins_iff hpoints p.1.id name).mpr ⟨rfl, .refl _⟩

theorem told_apart {ps : List (Anchor α × Vertex α)} (hps : ∀ p ∈ ps, p.2.id.IsText)
    (hapart : ps.Pairwise Apart) :
    (told issued ps).constraints.Pairwise fun c d => c.sameAs d = .ok false := by
  have hemitted := hapart.filter (·.1.emit)
  have htexts : ∀ p ∈ ps.filter (·.1.emit), p.2.id.IsText := fun p hp =>
    hps p (List.mem_of_mem_filter hp)
  rw [told, List.pairwise_iff_getElem]
  intro i j hi hj hij
  rw [List.length_mapIdx] at hi hj
  simp only [List.getElem_mapIdx]
  have hp := htexts _ (List.getElem_mem hi)
  have hq := htexts _ (List.getElem_mem hj)
  refine Constraint.sameAs_coincidence ?_ ⟨_, rfl⟩ hq ?_
  · exact Constraint.coincidence_namesTexts ⟨_, rfl⟩ hp
  · exact joint_joins hp hq (List.pairwise_iff_getElem.mp hemitted i j hi hj hij)

variable [Scalar α] {e : Element α} {as : List (Anchor α)} {vs : List (Vertex α)}

theorem meets_append (existing cs : List Constraint) (p : Anchor α × Vertex α) :
    meets (existing ++ cs) p = (meets existing p && !cs.any (·.joins (.text p.1.id) p.2.id)) := by
  rw [meets, meets, List.any_append, Bool.not_or, Bool.and_assoc]

theorem axis?_append (existing cs : List Constraint) (e : Element α) :
    axis? (existing ++ cs) e = if hasAxis (lineName e.id) cs then none else axis? existing e := by
  obtain ⟨id, shape⟩ := e
  cases shape with
  | line start stop =>
    unfold axis?
    dsimp only
    rw [hasAxis_eq, hasAxis_eq, hasAxis_eq, List.any_append]
    cases existing.any (·.aligns (lineName id)) <;> cases cs.any (·.aligns (lineName id)) <;> rfl
  | hline | vline | rectangle | circle | arc | spline | foreign => exact (ite_self none).symm

theorem axis?_eq_some {kind : ConstraintKind} (h : axis? existing e = some kind) :
    (kind = .horizontal ∨ kind = .vertical) ∧ hasAxis (lineName e.id) existing = false := by
  obtain ⟨id, shape⟩ := e
  unfold axis? at h
  split at h
  · split at h
    · cases h
    · rename_i hnone
      refine ⟨?_, by simpa using hnone⟩
      split at h
      · exact .inl (Option.some.inj h).symm
      · split at h
        · exact .inr (Option.some.inj h).symm
        · cases h
  · cases h

theorem meetings_text (hvs : ∀ v ∈ vs, v.id.IsText) :
    ∀ p ∈ meetings existing as vs, p.2.id.IsText := by
  intro p hp
  obtain ⟨a, _, hp⟩ := List.mem_flatMap.mp (List.mem_of_mem_filter hp)
  obtain ⟨v, hv, rfl⟩ := List.mem_map.mp hp
  exact hvs v hv

theorem suggestions_namesTexts (hvs : ∀ v ∈ vs, v.id.IsText) :
    ∀ c ∈ (suggestions issued existing e as vs).constraints, c.NamesTexts := by
  refine List.forall_mem_append.mpr ⟨told_namesTexts (meetings_text hvs), fun c hc q hq => ?_⟩
  obtain ⟨kind, _, rfl⟩ := List.mem_map.mp hc
  exact ⟨lineName e.id, List.mem_singleton.mp hq⟩

/-- Where pairs are apart, all that is suggested is new. -/
theorem suggestions_new (hexisting : ∀ c ∈ existing, c.NamesTexts)
    (hvs : ∀ v ∈ vs, v.id.IsText) (hapart : (meetings existing as vs).Pairwise Apart) :
    Constraint.New existing (suggestions issued existing e as vs).constraints := by
  have htexts : ∀ p ∈ meetings existing as vs, p.2.id.IsText := meetings_text hvs
  have htold : ∀ c ∈ (told issued (meetings existing as vs)).constraints, c.NamesTexts :=
    told_namesTexts htexts
  constructor
  · intro c hc
    rcases List.mem_append.mp hc with hc | hc
    · obtain ⟨p, _, id, rfl⟩ := mem_told hc
      rfl
    · obtain ⟨kind, hkind, rfl⟩ := List.mem_map.mp hc
      rcases (axis?_eq_some (Option.mem_toList.mp hkind)).1 with rfl | rfl <;> rfl
  · intro c hc d hd
    rcases List.mem_append.mp hc with hc | hc
    · obtain ⟨p, hp, id, rfl⟩ := mem_told hc
      have hmeets := (List.mem_filter.mp hp).2
      simp only [meets, Bool.and_eq_true, Bool.not_eq_true', List.any_eq_false] at hmeets
      exact Constraint.sameAs_coincidence (hexisting d hd) ⟨_, rfl⟩ (htexts p hp)
        (by simpa using hmeets.2 d hd)
    · obtain ⟨kind, hkind, rfl⟩ := List.mem_map.mp hc
      obtain ⟨haxis, hnone⟩ := axis?_eq_some (Option.mem_toList.mp hkind)
      rw [hasAxis_eq, List.any_eq_false] at hnone
      exact Constraint.sameAs_axis haxis (hexisting d hd) (by simpa using hnone d hd)
  · refine List.pairwise_append.mpr ⟨told_apart htexts hapart, ?_, ?_⟩
    · cases axis? existing e with
      | none => exact .nil
      | some kind => exact List.pairwise_singleton _ _
    · -- a coincidence is no axis
      intro c hc d hd
      obtain ⟨kind, hkind, rfl⟩ := List.mem_map.mp hd
      obtain ⟨haxis, -⟩ := axis?_eq_some (Option.mem_toList.mp hkind)
      refine Constraint.sameAs_axis haxis (htold c hc) ?_
      obtain ⟨p, _, id, rfl⟩ := mem_told hc
      rfl

/-- **Asking again.** Once all that was suggested is there, nothing is suggested any more. -/
theorem suggestions_again (issued again : Nat) (hvs : ∀ v ∈ vs, v.id.IsText) :
    (suggestions again (existing ++ (suggestions issued existing e as vs).constraints) e as
      vs).constraints = [] := by
  have hnone : axis? (existing ++ (suggestions issued existing e as vs).constraints) e = none := by
    rw [axis?_append]
    cases haxis : axis? existing e with
    | none => exact ite_self none
    | some kind =>
      refine if_pos ?_
      rw [hasAxis_eq, List.any_eq_true]
      refine ⟨_, List.mem_append_right _ (by rw [haxis]; exact List.mem_singleton.mpr rfl), ?_⟩
      rcases (axis?_eq_some haxis).1 with rfl | rfl <;> simp [Constraint.aligns]
  have htold : (meetings (existing ++ (suggestions issued existing e as vs).constraints) as
      vs).filter (·.1.emit) = [] := by
    refine List.filter_eq_nil_iff.mpr fun p hp hemit => ?_
    obtain ⟨hpair, hmeets⟩ := List.mem_filter.mp hp
    rw [meets_append, Bool.and_eq_true, Bool.not_eq_true', List.any_eq_false] at hmeets
    -- the pair met before as well, so that it was joined
    obtain ⟨id, hjoint⟩ :
        ∃ id, joint id p ∈ (told issued (meetings existing as vs)).constraints :=
      joint_mem_told (List.mem_filter.mpr ⟨hpair, hmeets.1⟩) hemit
    obtain ⟨a, _, hpair⟩ := List.mem_flatMap.mp hpair
    obtain ⟨v, hv, rfl⟩ := List.mem_map.mp hpair
    exact hmeets.2 _ (List.mem_append_left _ hjoint) (joint_joins_self id (hvs v hv))
  rw [suggestions, told, htold, hnone]
  rfl

/-- What is found for an element in a drawing is new, and nothing is found once it is there. -/
theorem detect_new {flags : Flags} {others : List (Element α)} {found : Suggestions}
    (he : e.id.IsText) (hothers : ∀ e' ∈ others, e'.id.IsText)
    (hexisting : ∀ c ∈ existing, c.NamesTexts)
    (h : detect flags issued e others existing = .ok found) :
    Constraint.New existing found.constraints ∧
      ∀ again, ∃ none, detect flags again e others (existing ++ found.constraints) = .ok none ∧
        none.constraints = [] := by
  cases hflag : flags.isEnabled (.text "auto_constraints") with
  | false =>
    have hnothing : ∀ issued cs, detect flags issued e others cs = .ok {} := fun issued cs => by
      rw [detect, hflag]
      rfl
    obtain rfl : {} = found := Except.ok.inj ((hnothing issued existing).symm.trans h)
    exact ⟨⟨nofun, nofun, .nil⟩, fun again => ⟨{}, hnothing again _, rfl⟩⟩
  | true =>
    rw [detect_eq hflag issued he hothers hexisting] at h
    obtain ⟨g, hg, h⟩ := bind_eq_ok.mp h
    obtain ⟨as, has, h⟩ := bind_eq_ok.mp h
    cases h
    have hvs : ∀ v ∈ otherVertices e g, v.id.IsText := fun v hv =>
      (Graph.ofElements_covers hg).named.1 v (List.mem_of_mem_filter hv)
    constructor
    · exact suggestions_new hexisting hvs
        ((drawing_apart has hg he hothers).sublist List.filter_sublist)
    · intro again
      have htexts : ∀ c ∈ existing ++ (suggestions issued existing e as
          (otherVertices e g)).constraints, c.NamesTexts :=
        List.forall_mem_append.mpr ⟨hexisting, suggestions_namesTexts hvs⟩
      rw [detect_eq hflag again he hothers htexts]
      exact ⟨_, bind_eq_ok.mpr ⟨g, hg, bind_eq_ok.mpr ⟨as, has, rfl⟩⟩,
        suggestions_again issued again hvs⟩

end Suggestion

/-! ## Drawing with suggestions -/

namespace Sketch

/-- A new element whose suggestions were found is put into the sketch, and then they are added. -/
theorem addElement_eq_ok {s t : Sketch} {flags : Flags} {e : Element Float} {found : Suggestions}
    (h : s.addElement flags e true = (t, .ok found)) :
    Suggestion.detect flags s.issued e s.elements s.constraints = .ok found ∧
      ∃ grown : Sketch, grown.constraints = s.constraints ∧
        t = (grown.addConstraints found.constraints).1 := by
  simp only [addElement, Bool.not_true, Bool.false_eq_true, if_false] at h
  split at h
  · cases h
  · rename_i found' hfound
    split at h
    · rename_i hadded
      cases h
      exact ⟨hfound,
        { s with
          elements := s.elements ++ [e], dirty := true
          issued := s.issued + found.constraints.length },
        rfl, (congrArg Prod.fst hadded).symm⟩
    · cases h

/-- **Suggestions are accepted as they are.** In a sketch whose elements have texts for identifiers
and whose constraints name things by texts, whatever else they name, a new element brings along all
constraints that are suggested for it, in their order, none of them refused as a repetition; and
nothing is suggested for the element any more. -/
theorem suggestions_accepted {s t : Sketch} {flags : Flags} {e : Element Float}
    {found : Suggestions} (he : e.id.IsText) (hes : ∀ e' ∈ s.elements, e'.id.IsText)
    (hcs : ∀ c ∈ s.constraints, c.NamesTexts)
    (h : s.addElement flags e true = (t, .ok found)) :
    Suggestion.detect flags s.issued e s.elements s.constraints = .ok found ∧
      t.constraints = s.constraints ++ found.constraints ∧
      ∀ issued, ∃ again,
        Suggestion.detect flags issued e s.elements t.constraints = .ok again ∧
          again.constraints = [] := by
  obtain ⟨hfound, grown, hgrown, ht⟩ := addElement_eq_ok h
  obtain ⟨hnew, hagain⟩ := Suggestion.detect_new he hes hcs hfound
  have hconstraints : t.constraints = s.constraints ++ found.constraints := by
    rw [← hgrown] at hnew ⊢
    rw [ht, addConstraints_new hnew]
  refine ⟨hfound, hconstraints, ?_⟩
  rw [hconstraints]
  exact hagain

/-- A horizontal line from near two centers to near a corner. -/
def newcomer : Element Float := ⟨.text "l", .hline ⟨0.0, 0.0⟩ 9.0⟩

/-- A rectangle and two circles, and constraints on a line to come that name more than they need: a
coincidence with a line beside its two points, and one of three points. -/
def wordySketch : Sketch where
  id := .text "s"
  elements :=
    [⟨.text "r", .rectangle ⟨10.0, 2.0⟩ ⟨200.0, 50.0⟩⟩, ⟨.text "c", .circle ⟨1.0, 1.0⟩ 5.0⟩,
      ⟨.text "d", .circle ⟨2.0, 0.0⟩ 7.0⟩]
  constraints :=
    [{ kind := .coincident, id := .text "k", points := [.text "c_center", .text "l_start"]
       lines := [.text "l_line"] },
      { kind := .coincident, id := .text "m"
        points := [.text "d_center", .text "l_end", .text "r_corner0"] }]

/-- Of three coincidences the first is there already, with a line named beside its points; the others
are stored. -/
theorem suggestions_accepted_wordy :
    ∃ t found, wordySketch.addElement .standard newcomer true = (t, .ok found) ∧
      found.constraints.map (·.points.map Value.plain) =
        [["l_start", "d_center"], ["l_end", "r_corner0"]] ∧
      t.constraints = wordySketch.constraints ++ found.constraints ∧
      ∃ again, Suggestion.detect .standard 2 newcomer wordySketch.elements t.constraints =
          .ok again ∧ again.constraints = [] := by
  have hes : ∀ e ∈ wordySketch.elements, e.id.IsText := by
    intro e he
    simp only [wordySketch, List.mem_cons, List.not_mem_nil, or_false] at he
    rcases he with rfl | rfl | rfl <;> exact ⟨_, rfl⟩
  have hcs : ∀ c ∈ wordySketch.constraints, c.NamesTexts := by
    intro c hc q hq
    simp only [wordySketch, List.mem_cons, List.not_mem_nil, or_false] at hc
    rcases hc with rfl | rfl
    all_goals
      simp only [Constraint.references, List.cons_append, List.nil_append, List.append_nil,
        List.mem_cons, List.not_mem_nil, or_false] at hq
      rcases hq with rfl | rfl | rfl <;> exact ⟨_, rfl⟩
  have hpoints : (wordySketch.addElement .standard newcomer true).2.toOption.map
      (fun found => found.constraints.map (·.points.map Value.plain)) =
        some [["l_start", "d_center"], ["l_end", "r_corner0"]] := by decide +kernel
  cases hfound : (wordySketch.addElement .standard newcomer true).2 with
  | error e =>
    rw [hfound] at hpoints
    cases hpoints
  | ok found =>
    have h : wordySketch.addElement .standard newcomer true =
        ((wordySketch.addElement .standard newcomer true).1, .ok found) := Prod.ext rfl hfound
    rw [hfound] at hpoints
    obtain ⟨_, hstored, hagain⟩ := suggestions_accepted ⟨_, rfl⟩ hes hcs h
    exact ⟨_, found, h, Option.some.inj hpoints, hstored, hagain 2⟩

end Sketch

end Drafting
