import Drafting.Proofs.Failure
import Drafting.Suggestion

/-!
Comparing constraints. Names are compared after sorting, and not every two values have an order. The
parts of a drawing are named by texts, which do: lists of texts are the same after sorting exactly
if one is a permutation of the other. So constraints that name things by texts can always be
compared as to what they name. What they require is compared for dimensions only, whose target value
must be a number.
-/

namespace Drafting

/-! ## Texts in order -/

namespace Value

/-- A value is a text. -/
def IsText (v : Value) : Prop := ∃ name, v = .text name

theorem exists_texts {vs : List Value} (hvs : ∀ v ∈ vs, v.IsText) :
    ∃ names : List String, vs = names.map .text := by
  induction vs with
  | nil => exact ⟨[], rfl⟩
  | cons v vs ih =>
    obtain ⟨⟨name, rfl⟩, hrest⟩ := List.forall_mem_cons.mp hvs
    obtain ⟨names, rfl⟩ := ih hrest
    exact ⟨name :: names, rfl⟩

theorem map_text_beq (ss ts : List String) :
    (ss.map Value.text == ts.map Value.text) = true ↔ ss = ts := by
  induction ss generalizing ts with
  | nil => cases ts <;> simp
  | cons s ss ih =>
    cases ts with
    | nil => simp
    | cons t ts => simp [ih]

/-- No text comes after one that follows it. -/
def Rising (names : List String) : Prop := names.Pairwise fun s t => ¬ t < s

/-- A text is put in its place among others. -/
theorem insertSorted_texts (name : String) {names : List String} (h : Rising names) :
    ∃ us, insertSorted (.text name) (names.map .text) = .ok (us.map .text) ∧
      us.Perm (name :: names) ∧ Rising us := by
  induction names with
  | nil => exact ⟨[name], rfl, .refl _, by simp [Rising]⟩
  | cons t ts ih =>
    obtain ⟨ht, hts⟩ := List.pairwise_cons.mp h
    have hless : less (.text name) (.text t) = .ok (decide (name < t)) := by rw [less]
    by_cases hlt : name < t
    · refine ⟨name :: t :: ts, ?_, .refl _, List.pairwise_cons.mpr ⟨?_, h⟩⟩
      · exact bind_eq_ok.mpr ⟨true, by simpa [hlt] using hless, rfl⟩
      · intro u hu hun
        rcases List.mem_cons.mp hu with rfl | hu
        · exact String.lt_irrefl _ (String.lt_trans hlt hun)
        · exact ht u hu (String.lt_trans hun hlt)
    · obtain ⟨us, hus, hperm, hrising⟩ := ih hts
      refine ⟨t :: us, ?_, (hperm.cons t).trans (.swap name t ts),
        List.pairwise_cons.mpr ⟨?_, hrising⟩⟩
      · exact bind_eq_ok.mpr ⟨false, by simpa [hlt] using hless, bind_eq_ok.mpr ⟨_, hus, rfl⟩⟩
      · intro u hu
        rcases List.mem_cons.mp (hperm.mem_iff.mp hu) with rfl | hu
        · exact hlt
        · exact ht u hu

/-- Texts are put in order. -/
theorem sorted_texts (names : List String) :
    ∃ us, sorted (names.map .text) = .ok (us.map .text) ∧ us.Perm names ∧ Rising us := by
  -- The values that were put in order so far are carried along.
  have hfold : ∀ (names done : List String), Rising done →
      ∃ us, (names.map Value.text).foldlM (fun ws v => insertSorted v ws) (done.map Value.text) =
          .ok (us.map Value.text) ∧ us.Perm (names ++ done) ∧ Rising us := by
    intro names
    induction names with
    | nil => exact fun done hdone => ⟨done, rfl, .refl _, hdone⟩
    | cons name names ih =>
      intro done hdone
      obtain ⟨ws, hws, hwsperm, hwsrising⟩ := insertSorted_texts name hdone
      obtain ⟨us, hus, hperm, hrising⟩ := ih ws hwsrising
      refine ⟨us, ?_, ?_, hrising⟩
      · rw [List.map_cons, List.foldlM_cons, hws]
        exact hus
      · exact hperm.trans ((hwsperm.append_left names).trans List.perm_middle)
  obtain ⟨us, hus, hperm, hrising⟩ := hfold names [] List.Pairwise.nil
  exact ⟨us, hus, by simpa using hperm, hrising⟩

/-- Putting a value in its place leaves nothing out and adds nothing else. -/
theorem insertSorted_perm {v : Value} {ws us : List Value} (h : insertSorted v ws = .ok us) :
    us.Perm (v :: ws) := by
  induction ws generalizing us with
  | nil =>
    cases h
    exact .refl _
  | cons w ws ih =>
    obtain ⟨before, _, h⟩ := bind_eq_ok.mp h
    cases before with
    | true =>
      cases h
      exact .refl _
    | false =>
      obtain ⟨vs, hvs, h⟩ := bind_eq_ok.mp h
      cases h
      exact ((ih hvs).cons w).trans (.swap v w ws)

theorem sorted_perm {vs us : List Value} (h : sorted vs = .ok us) : us.Perm vs := by
  have hfold : ∀ (vs done us : List Value),
      vs.foldlM (fun ws v => insertSorted v ws) done = .ok us → us.Perm (vs ++ done) := by
    intro vs
    induction vs with
    | nil =>
      intro done us h
      cases h
      exact .refl _
    | cons v vs ih =>
      intro done us h
      rw [List.foldlM_cons] at h
      obtain ⟨ws, hws, h⟩ := bind_eq_ok.mp h
      exact (ih ws us h).trans (((insertSorted_perm hws).append_left vs).trans List.perm_middle)
  simpa using hfold vs [] us h

/-- A value is a name: a text, given or issued. -/
inductive IsName : Value → Prop where
  | text (name : String) : IsName (.text name)
  | issued (number : Nat) : IsName (.issued number)

instance : DecidablePred IsName
  | .text name => .isTrue (.text name)
  | .issued number => .isTrue (.issued number)
  | .null | .bool _ | .int _ | .float _ | .list _ | .object _ => .isFalse nofun

theorem IsText.isName {v : Value} (hv : v.IsText) : v.IsName := by
  obtain ⟨name, rfl⟩ := hv
  exact .text name

/-- Nothing but itself equals a name. -/
theorem IsName.eq_of_beq {v w : Value} (hv : v.IsName) (h : (v == w) = true) : v = w := by
  cases hv with
  | text name =>
    cases w with
    | text other =>
      rw [text_beq_text, beq_iff_eq] at h
      rw [h]
    | null | bool | int | float | issued | list | object => cases h
  | issued number =>
    cases w with
    | issued other =>
      have hnumber : (number == other) = true := h
      rw [beq_iff_eq.mp hnumber]
    | null | bool | int | float | text | list | object => cases h

theorem eq_of_names_beq {vs ws : List Value} (hvs : ∀ v ∈ vs, v.IsName)
    (h : (vs == ws) = true) : vs = ws := by
  induction vs generalizing ws with
  | nil =>
    cases ws with
    | nil => rfl
    | cons => cases h
  | cons v vs ih =>
    cases ws with
    | nil => cases h
    | cons w ws =>
      obtain ⟨hv, hrest⟩ := List.forall_mem_cons.mp hvs
      rw [List.cons_beq_cons, Bool.and_eq_true] at h
      rw [hv.eq_of_beq h.1, ih hrest h.2]

theorem texts_isOk {vs : List Value} (hvs : ∀ v ∈ vs, v.IsName) (place : Nat) :
    ∃ names, texts place vs = .ok names := by
  induction vs generalizing place with
  | nil => exact ⟨[], rfl⟩
  | cons v vs ih =>
    obtain ⟨hv, hnames⟩ := List.forall_mem_cons.mp hvs
    obtain ⟨names, hrest⟩ := ih hnames (place + 1)
    obtain ⟨name, hname⟩ : ∃ name, v.asText place = .ok name := by
      cases hv <;> exact ⟨_, rfl⟩
    exact ⟨name :: names, bind_eq_ok.mpr ⟨name, hname, bind_eq_ok.mpr ⟨names, hrest, rfl⟩⟩⟩

end Value

/-! ## Constraints that name things by texts -/

namespace Constraint

/-- Everything that a constraint names, it names by a text. -/
def NamesTexts (c : Constraint) : Prop := ∀ q ∈ c.references, q.IsText

variable {c d : Constraint}

/-- **Comparing texts in order compares them as multisets.** -/
theorem sameNames_texts (xs ys : List String) :
    ∃ same, sameNames (xs.map .text) (ys.map .text) = .ok same ∧
      (same = true ↔ xs.Perm ys) := by
  obtain ⟨us, hus, hxs, husrising⟩ := Value.sorted_texts xs
  obtain ⟨vs, hvs, hys, hvsrising⟩ := Value.sorted_texts ys
  refine ⟨_, bind_eq_ok.mpr ⟨_, hus, bind_eq_ok.mpr ⟨_, hvs, rfl⟩⟩, ?_⟩
  rw [Value.map_text_beq]
  constructor
  · rintro rfl
    exact hxs.symm.trans hys
  · intro hperm
    refine List.Perm.eq_of_pairwise (fun s t _ _ hst hts => ?_) husrising hvsrising
      (hxs.trans (hperm.trans hys.symm))
    exact String.le_antisymm (String.not_lt.mp hst) (String.not_lt.mp hts)

theorem sameNames_isOk {xs ys : List Value} (hxs : ∀ x ∈ xs, x.IsText)
    (hys : ∀ y ∈ ys, y.IsText) : ∃ same, sameNames xs ys = .ok same := by
  obtain ⟨us, rfl⟩ := Value.exists_texts hxs
  obtain ⟨vs, rfl⟩ := Value.exists_texts hys
  obtain ⟨same, hsame, _⟩ := sameNames_texts us vs
  exact ⟨same, hsame⟩

theorem NamesTexts.points (hc : c.NamesTexts) : ∀ q ∈ c.points, q.IsText :=
  fun q hq => hc q (by simp [references, hq])

theorem NamesTexts.lines (hc : c.NamesTexts) : ∀ q ∈ c.lines, q.IsText :=
  fun q hq => hc q (by simp [references, hq])

theorem NamesTexts.circles (hc : c.NamesTexts) : ∀ q ∈ c.circles, q.IsText :=
  fun q hq => hc q (by simp [references, hq])

theorem sameReferences_isOk (hc : c.NamesTexts) (hd : d.NamesTexts) :
    ∃ same, c.sameReferences d = .ok same := by
  obtain ⟨points, hpoints⟩ := sameNames_isOk hc.points hd.points
  obtain ⟨lines, hlines⟩ := sameNames_isOk hc.lines hd.lines
  obtain ⟨circles, hcircles⟩ := sameNames_isOk hc.circles hd.circles
  unfold sameReferences
  rw [hpoints, hlines, hcircles]
  cases points with
  | false => exact ⟨false, rfl⟩
  | true =>
    cases lines with
    | false => exact ⟨false, rfl⟩
    | true => exact ⟨circles, rfl⟩

/-- A constraint that is no dimension can be compared to every other. -/
theorem sameAs_isOk (hc : c.NamesTexts) (hd : d.NamesTexts) (hkind : d.kind.isDimension = false) :
    ∃ same, c.sameAs d = .ok same := by
  obtain ⟨same, hsame⟩ := sameReferences_isOk hc hd
  unfold sameAs
  by_cases hkinds : c.kind = d.kind
  · rw [if_neg (by simp [hkinds]), hsame, hkinds, hkind]
    cases same with
    | false => exact ⟨false, rfl⟩
    | true => exact ⟨true, rfl⟩
  · exact ⟨false, by rw [if_pos (by simp [hkinds])]; rfl⟩

theorem duplicateIndex?_isOk {cs : List Constraint} (hc : c.NamesTexts)
    (hkind : c.kind.isDimension = false) (hcs : ∀ d ∈ cs, d.NamesTexts) :
    ∃ place, c.duplicateIndex? cs = .ok place := by
  induction cs with
  | nil => exact ⟨none, rfl⟩
  | cons d ds ih =>
    obtain ⟨hd, hds⟩ := List.forall_mem_cons.mp hcs
    obtain ⟨same, hsame⟩ := sameAs_isOk hd hc hkind
    obtain ⟨place, hplace⟩ := ih hds
    cases same with
    | true => exact ⟨some 0, bind_eq_ok.mpr ⟨true, hsame, rfl⟩⟩
    | false =>
      refine ⟨place.map (· + 1), bind_eq_ok.mpr ⟨false, hsame, ?_⟩⟩
      exact bind_eq_ok.mpr ⟨place, hplace, rfl⟩

theorem summary_isOk (hc : ∀ q ∈ c.references, q.IsName) : ∃ text, c.summary = .ok text := by
  obtain ⟨names, hnames⟩ := Value.texts_isOk hc 0
  exact ⟨_, bind_eq_ok.mpr ⟨names, hnames, rfl⟩⟩

/-- Whether a constraint makes exactly two points coincide, in whatever order it names them. -/
def joins (c : Constraint) (p q : Value) : Bool :=
  c.kind == .coincident && (c.points == [p, q] || c.points == [q, p])

theorem joins_iff {names : List String} (hpoints : c.points = names.map .text) (s t : String) :
    c.joins (.text s) (.text t) = true ↔ c.kind = .coincident ∧ names.Perm [s, t] := by
  have hpair : ∀ u v : String, (c.points == [.text u, .text v]) = true ↔ names = [u, v] := by
    intro u v
    rw [hpoints]
    exact Value.map_text_beq names [u, v]
  have hperm : names.Perm [s, t] ↔ names = [s, t] ∨ names = [t, s] := by
    constructor
    · intro h
      obtain ⟨u, v, rfl⟩ := List.length_eq_two.mp h.length_eq
      simp only [List.cons_perm_iff_perm_erase] at h
      grind
    · rintro (rfl | rfl)
      · exact .refl _
      · exact .swap s t []
  rw [joins, Bool.and_eq_true, Bool.or_eq_true, hpair, hpair, hperm, beq_iff_eq]

end Constraint

/-- Two points that are named by texts are known to coincide exactly if some constraint joins
them. -/
theorem Suggestion.hasPair_eq {p q : Value} {cs : List Constraint} (hp : p.IsText)
    (hq : q.IsText) (hcs : ∀ c ∈ cs, c.NamesTexts) :
    hasPair p q cs = .ok (cs.any (·.joins p q)) := by
  obtain ⟨s, rfl⟩ := hp
  obtain ⟨t, rfl⟩ := hq
  induction cs with
  | nil => rfl
  | cons c cs ih =>
    obtain ⟨hc, hcs⟩ := List.forall_mem_cons.mp hcs
    obtain ⟨names, hnames⟩ := Value.exists_texts hc.points
    obtain ⟨same, hsame, hperm⟩ := Constraint.sameNames_texts names [s, t]
    have hsame : Constraint.sameNames c.points [.text s, .text t] = .ok same := hnames ▸ hsame
    have hjoins := Constraint.joins_iff hnames s t
    rw [List.any_cons, hasPair, hsame]
    split
    · rename_i hcond
      have hkind : c.kind = .coincident := by
        simp only [Bool.and_eq_true, beq_iff_eq] at hcond
        exact hcond.1
      have heq : c.joins (.text s) (.text t) = same := by
        rw [Bool.eq_iff_iff, hjoins, hperm]
        exact and_iff_right hkind
      rw [heq]
      cases same with
      | true => rfl
      | false => exact ih hcs
    · rename_i hcond
      -- A constraint that joins two points names two of them.
      have hfalse : c.joins (.text s) (.text t) = false := by
        rw [Bool.eq_false_iff]
        intro htrue
        obtain ⟨hkind, hnamed⟩ := hjoins.mp htrue
        apply hcond
        simp [hkind, hnames, hnamed.length_eq]
      rw [hfalse]
      exact ih hcs

end Drafting
