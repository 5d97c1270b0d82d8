import Drafting.Proofs.Comparison
import Drafting.Proofs.Extraction
import Drafting.Proofs.References

/-!
What is suggested for a new element, in closed form. The detector goes through all pairs of an
anchor of the element and a vertex of another one, and compares each pair to what exists and to what
was suggested before. The second comparison never finds anything: names of anchors tell anchors
apart, names of vertices vertices, and no anchor has the name of a vertex of another element. So a
pair is taken up exactly if the two are near each other and nothing that exists joins them, and no
two points are joined twice.
-/

namespace Drafting

namespace Suggestion

variable {α : Type}

/-! ## Pairs -/

/-- All pairs of an anchor and a vertex, anchor by anchor. -/
def pairs (as : List (Anchor α)) (vs : List (Vertex α)) : List (Anchor α × Vertex α) :=
  as.flatMap fun a => vs.map fun v => (a, v)

/-- Whether an anchor and a vertex are taken up: they are near each other, and nothing that exists
joins them. -/
def meets [Scalar α] (existing : List Constraint) (p : Anchor α × Vertex α) : Bool :=
  near p.1.position p.2 && !existing.any (·.joins (.text p.1.id) p.2.id)

/-- The pairs that are taken up. -/
def meetings [Scalar α] (existing : List Constraint) (as : List (Anchor α))
    (vs : List (Vertex α)) : List (Anchor α × Vertex α) :=
  (pairs as vs).filter (meets existing)

/-- Two pairs are not of the same two points, in whatever order. -/
def Apart (p q : Anchor α × Vertex α) : Prop :=
  ¬ (p.1.id = q.1.id ∧ p.2.id = q.2.id) ∧ ¬ (.text p.1.id = q.2.id ∧ p.2.id = .text q.1.id)

/-- The constraint that joins a pair, under an identifier. -/
def joint (id : Value) (p : Anchor α × Vertex α) : Constraint :=
  .coincidence id (.text p.1.id) p.2.id

/-- What is said about a pair. -/
def remark (p : Anchor α × Vertex α) : String :=
  "Coincident: " ++ p.1.label ++ " to " ++ vertexWord p.2

/-- The suggestions for pairs that were taken up. All of them are remarked on; those whose anchor
says so are joined, under consecutive identifiers. -/
def told (issued : Nat) (ps : List (Anchor α × Vertex α)) : Suggestions where
  constraints := (ps.filter (·.1.emit)).mapIdx fun i p => joint (.issued (issued + i)) p
  descriptions := ps.map remark

theorem told_concat (issued : Nat) (ps : List (Anchor α × Vertex α)) (a : Anchor α)
    (v : Vertex α) : coincide issued (told issued ps) a v = told issued (ps ++ [(a, v)]) := by
  unfold coincide told
  cases hemit : a.emit with
  | true =>
    simp only [List.filter_append, List.filter_cons, hemit, if_true, List.filter_nil,
      List.mapIdx_concat, List.length_mapIdx, List.map_append, List.map_cons, List.map_nil]
    rfl
  | false => simp [hemit, remark]

theorem mem_told {issued : Nat} {ps : List (Anchor α × Vertex α)} {c : Constraint}
    (hc : c ∈ (told issued ps).constraints) : ∃ p ∈ ps, ∃ id, c = joint id p := by
  obtain ⟨i, hi, rfl⟩ := List.mem_mapIdx.mp hc
  exact ⟨_, List.mem_of_mem_filter (List.getElem_mem hi), _, rfl⟩

/-! ## The loop -/

section Loop

variable {issued : Nat} {existing : List Constraint}

theorem joint_joins {id : Value} {p q : Anchor α × Vertex α} (hp : p.2.id.IsText)
    (hq : q.2.id.IsText) (h : Apart p q) :
    (joint id p).joins (.text q.1.id) q.2.id = false := by
  obtain ⟨s, hs⟩ := hp
  obtain ⟨t, ht⟩ := hq
  rw [Bool.eq_false_iff]
  intro hjoins
  have hsame : p.1.id = q.1.id ∧ s = t ∨ p.1.id = t ∧ s = q.1.id := by
    simpa [joint, Constraint.joins, Constraint.coincidence, hs, ht] using hjoins
  rcases hsame with ⟨hanchor, rfl⟩ | ⟨rfl, hvertex⟩
  · exact h.1 ⟨hanchor, hs.trans ht.symm⟩
  · exact h.2 ⟨ht.symm, by rw [hs, hvertex]⟩

/-- Nothing that was told joins a pair that is apart from all that was told of. -/
theorem told_any_joins {done : List (Anchor α × Vertex α)} {p : Anchor α × Vertex α}
    (hdone : ∀ q ∈ done, q.2.id.IsText) (hp : p.2.id.IsText) (hfresh : ∀ q ∈ done, Apart q p) :
    (told issued done).constraints.any (·.joins (.text p.1.id) p.2.id) = false := by
  rw [List.any_eq_false]
  intro c hc
  obtain ⟨q, hq, id, rfl⟩ := mem_told hc
  simp [joint_joins (hdone q hq) hp (hfresh q hq)]

theorem told_namesTexts {done : List (Anchor α × Vertex α)}
    (hdone : ∀ q ∈ done, q.2.id.IsText) :
    ∀ c ∈ (told issued done).constraints, c.NamesTexts := by
  intro c hc
  obtain ⟨q, hq, id, rfl⟩ := mem_told hc
  intro name hname
  rcases List.mem_pair.mp hname with rfl | rfl
  · exact ⟨_, rfl⟩
  · exact hdone q hq

variable [Scalar α]

/-- **One pair**: if it is apart from all that was told of, it is taken up exactly if it meets. -/
theorem consider_told {done : List (Anchor α × Vertex α)} {p : Anchor α × Vertex α}
    (hexisting : ∀ c ∈ existing, c.NamesTexts) (hdone : ∀ q ∈ done, q.2.id.IsText)
    (hp : p.2.id.IsText) (hfresh : ∀ q ∈ done, Apart q p) :
    consider issued existing (told issued done) p.1 p.2 =
      .ok (told issued (done ++ [p].filter (meets existing))) := by
  have hpair : hasPair (.text p.1.id) p.2.id (existing ++ (told issued done).constraints) =
      .ok (existing.any (·.joins (.text p.1.id) p.2.id)) := by
    rw [hasPair_eq ⟨_, rfl⟩ hp
      (List.forall_mem_append.mpr ⟨hexisting, told_namesTexts hdone⟩),
      List.any_append, told_any_joins hdone hp hfresh, Bool.or_false]
  have hmeets : [p].filter (meets existing) = if meets existing p then [p] else [] := by
    rw [List.filter_cons, List.filter_nil]
  rw [consider, hpair, hmeets, meets]
  cases near p.1.position p.2 with
  | false => simp [pure, Except.pure]
  | true =>
    cases existing.any (·.joins (.text p.1.id) p.2.id) with
    | true => simp [bind, Except.bind, pure, Except.pure]
    | false => exact congrArg Except.ok (told_concat issued done p.1 p.2)

/-- **All pairs**: of pairs that are apart from each other those are taken up that meet. -/
theorem foldlM_consider (hexisting : ∀ c ∈ existing, c.NamesTexts)
    {ps done : List (Anchor α × Vertex α)} (hps : ∀ p ∈ ps, p.2.id.IsText)
    (hdone : ∀ q ∈ done, q.2.id.IsText) (hapart : ps.Pairwise Apart)
    (hfresh : ∀ q ∈ done, ∀ p ∈ ps, Apart q p) :
    ps.foldlM (fun found p => consider issued existing found p.1 p.2) (told issued done) =
      .ok (told issued (done ++ ps.filter (meets existing))) := by
  induction ps generalizing done with
  | nil =>
    rw [List.filter_nil, List.append_nil]
    rfl
  | cons p ps ih =>
    obtain ⟨hp, hps⟩ := List.forall_mem_cons.mp hps
    obtain ⟨hrest, hapart⟩ := List.pairwise_cons.mp hapart
    have hp' : ∀ q ∈ [p].filter (meets existing), q = p := fun q hq =>
      List.mem_singleton.mp (List.mem_of_mem_filter hq)
    rw [List.foldlM_cons, consider_told hexisting hdone hp
      fun q hq => hfresh q hq p List.mem_cons_self]
    change ps.foldlM _ (told issued (done ++ [p].filter (meets existing))) = _
    rw [ih hps ?_ hapart ?_, List.append_assoc, ← List.filter_append]
    · rfl
    · refine List.forall_mem_append.mpr ⟨hdone, fun q hq => ?_⟩
      rw [hp' q hq]
      exact hp
    · refine List.forall_mem_append.mpr
        ⟨fun q hq r hr => hfresh q hq r (List.mem_cons_of_mem p hr), fun q hq => ?_⟩
      rw [hp' q hq]
      exact hrest

/-- The two loops are one loop over all pairs. -/
theorem foldlM_pairs (as : List (Anchor α)) (vs : List (Vertex α)) (found : Suggestions) :
    as.foldlM (fun found a => vs.foldlM (fun found v => consider issued existing found a v) found)
        found =
      (pairs as vs).foldlM (fun found p => consider issued existing found p.1 p.2) found := by
  induction as generalizing found with
  | nil => rfl
  | cons a as ih =>
    have hpairs : pairs (a :: as) vs = vs.map (fun v => (a, v)) ++ pairs as vs := by
      rw [pairs, List.flatMap_cons]
      rfl
    rw [hpairs, List.foldlM_append, List.foldlM_map, List.foldlM_cons]
    congr 1
    funext found
    exact ih found

end Loop

/-! ## Names -/

/-- The anchors of an element are named for different places of it. -/
theorem anchors_places [Scalar α] {indexed : Bool} {e : Element α} {as : List (Anchor α)}
    (h : anchors indexed e = .ok as) :
    ∃ slots : List (Role × Option Nat), slots.Nodup ∧
      as.map (·.id) = slots.map fun slot => vertexName e.id slot.1 slot.2 := by
  obtain ⟨id, shape⟩ := e
  cases shape with
  | line | hline | vline =>
    cases h
    exact ⟨[(.start, none), (.stop, none)], by decide, rfl⟩
  | circle =>
    cases h
    exact ⟨[(.center, none)], by decide, rfl⟩
  | rectangle =>
    cases h
    exact ⟨[(.corner, some 0), (.corner, some 1), (.corner, some 2), (.corner, some 3)],
      by decide, rfl⟩
  | arc center radius x y =>
    obtain ⟨start, _, h⟩ := bind_eq_ok.mp h
    obtain ⟨stop, _, h⟩ := bind_eq_ok.mp h
    cases h
    exact ⟨[(.start, none), (.stop, none), (.center, none)], by decide, rfl⟩
  | spline points =>
    simp only [anchors] at h
    split at h
    · split at h
      · rename_i hlength
        cases h
        have hne : points.length - 1 ≠ 0 := by omega
        exact ⟨[(.control, some 0), (.control, some (points.length - 1))],
          by simpa using hne.symm, rfl⟩
      · cases h
        exact ⟨[], .nil, rfl⟩
    · cases h
      exact ⟨[], .nil, rfl⟩
  | foreign => cases h

theorem anchors_nodup [Scalar α] {indexed : Bool} {e : Element α} {as : List (Anchor α)}
    (h : anchors indexed e = .ok as) : (as.map (·.id)).Nodup := by
  obtain ⟨slots, hnodup, hids⟩ := anchors_places h
  rw [hids]
  refine List.Nodup.map_on (fun s _ t _ hst => ?_) hnodup
  obtain ⟨_, hrole, hindex⟩ := vertexName_injective hst
  exact Prod.ext hrole hindex

/-- No anchor of an element has the name of a vertex of another one. -/
theorem anchor_ne_vertex [Scalar α] {indexed : Bool} {e : Element α} {as : List (Anchor α)}
    (has : anchors indexed e = .ok as) {others : List (Element α)} {g : Graph α}
    (hg : g.Covers others) (he : e.id.IsText) (hothers : ∀ e' ∈ others, e'.id.IsText)
    {a : Anchor α} (ha : a ∈ as) {v : Vertex α} (hv : v ∈ g.vertices)
    (helement : (v.element == e.id) = false) : v.id ≠ .text a.id := by
  intro hid
  obtain ⟨e', he', _, _, p, _, rfl⟩ := hg.sound v hv
  obtain ⟨slots, _, hids⟩ := anchors_places has
  have hmem : a.id ∈ as.map (·.id) := List.mem_map_of_mem ha
  rw [hids] at hmem
  obtain ⟨slot, _, hslot⟩ := List.mem_map.mp hmem
  -- The name tells the element, whose identifier is a text.
  have hname : vertexName e'.id p.role p.index = vertexName e.id slot.1 slot.2 :=
    (Value.text.inj hid).trans hslot.symm
  obtain ⟨hplain, _, _⟩ := vertexName_injective hname
  obtain ⟨s, hs⟩ := he
  obtain ⟨t, ht⟩ := hothers e' he'
  have hst : t = s := by simpa [hs, ht, Value.plain] using hplain
  have hsame : (e'.id == e.id) = true := by rw [hs, ht, hst, Value.beq_text_iff]
  exact absurd hsame (Bool.eq_false_iff.mp helement)

/-- Pairs are apart if anchors and vertices have different names, among themselves and from each
other. -/
theorem pairs_apart {as : List (Anchor α)} {vs : List (Vertex α)} (has : (as.map (·.id)).Nodup)
    (hvs : (vs.map (·.id)).Nodup) (hseparate : ∀ a ∈ as, ∀ v ∈ vs, v.id ≠ .text a.id) :
    (pairs as vs).Pairwise Apart := by
  refine List.pairwise_flatMap.mpr ⟨fun a ha => ?_, ?_⟩
  · rw [List.pairwise_map]
    refine (List.pairwise_map.mp hvs).imp_of_mem fun {v w} _ hw hvw => ?_
    exact ⟨fun h => hvw h.2, fun h => hseparate a ha w hw h.1.symm⟩
  · refine (List.pairwise_map.mp has).imp_of_mem fun {a b} ha hb hab p hp q hq => ?_
    obtain ⟨v, _, rfl⟩ := List.mem_map.mp hp
    obtain ⟨w, hw, rfl⟩ := List.mem_map.mp hq
    exact ⟨fun h => hab h.1, fun h => hseparate a ha w hw h.1.symm⟩

/-! ## Axes -/

variable [Scalar α]

/-- The axis along which an element is put: only a line that no constraint puts along one. -/
def axis? (existing : List Constraint) (e : Element α) : Option ConstraintKind :=
  match e.shape with
  | .line start stop =>
    if hasAxis (lineName e.id) existing then none
    else if nearlyHorizontal start stop then some .horizontal
    else if nearlyVertical start stop then some .vertical
    else none
  | _ => none

/-- The word for an axis in a description. -/
def axisWord (kind : ConstraintKind) : String :=
  if kind = .horizontal then "Horizontal" else "Vertical"

/-- The suggestions for an element with its anchors among vertices: the pairs that meet, and then at
most one axis. -/
def suggestions (issued : Nat) (existing : List Constraint) (e : Element α)
    (as : List (Anchor α)) (vs : List (Vertex α)) : Suggestions :=
  let found := told issued (meetings existing as vs)
  { constraints := found.constraints ++ (axis? existing e).toList.map fun kind =>
      { kind, id := .issued (issued + found.constraints.length)
        lines := [.text (lineName e.id)] }
    descriptions := found.descriptions ++ (axis? existing e).toList.map axisWord }

theorem considerAxis_told (issued : Nat) (existing : List Constraint) (e : Element α)
    (as : List (Anchor α)) (vs : List (Vertex α)) :
    considerAxis issued existing (told issued (meetings existing as vs)) e =
      suggestions issued existing e as vs := by
  obtain ⟨id, shape⟩ := e
  unfold suggestions considerAxis axis?
  cases shape with
  | line start stop =>
    dsimp only
    split
    · simp
    · split
      · rfl
      · split
        · rfl
        · simp
  | hline | vline | arc | circle | rectangle | spline | foreign => simp

/-! ## The closed form -/

/-- The vertices of a graph that belong to other elements. -/
def otherVertices (e : Element α) (g : Graph α) : List (Vertex α) :=
  g.vertices.filter fun v => !(v.element == e.id)

section Drawing

variable {indexed : Bool} {e : Element α} {as : List (Anchor α)} {others : List (Element α)}
  {g : Graph α}

/-- In a drawing whose elements have texts for identifiers, pairs are apart. -/
theorem drawing_apart (has : anchors indexed e = .ok as) (hg : Graph.ofElements others = .ok g)
    (he : e.id.IsText) (hothers : ∀ e' ∈ others, e'.id.IsText) :
    (pairs as (otherVertices e g)).Pairwise Apart := by
  have hcovers := Graph.ofElements_covers hg
  refine pairs_apart (anchors_nodup has) ?_ fun a ha v hv => ?_
  · exact hcovers.nodup.sublist (List.filter_sublist.map _)
  · obtain ⟨hv, helement⟩ := List.mem_filter.mp hv
    exact anchor_ne_vertex has hcovers he hothers ha hv (by simpa using helement)

/-- The loops over anchors and vertices tell of the pairs that meet. -/
theorem loops_eq (issued : Nat) {existing : List Constraint}
    (has : anchors indexed e = .ok as) (hg : Graph.ofElements others = .ok g)
    (he : e.id.IsText) (hothers : ∀ e' ∈ others, e'.id.IsText)
    (hexisting : ∀ c ∈ existing, c.NamesTexts) :
    as.foldlM (fun found a => (otherVertices e g).foldlM
        (fun found v => consider issued existing found a v) found) {} =
      .ok (told issued (meetings existing as (otherVertices e g))) := by
  have hnamed : ∀ p ∈ pairs as (otherVertices e g), p.2.id.IsText := by
    intro p hp
    obtain ⟨a, _, hp⟩ := List.mem_flatMap.mp hp
    obtain ⟨v, hv, rfl⟩ := List.mem_map.mp hp
    exact (Graph.ofElements_covers hg).named.1 v (List.mem_of_mem_filter hv)
  rw [foldlM_pairs]
  exact foldlM_consider hexisting hnamed (List.forall_mem_nil _)
    (drawing_apart has hg he hothers) (List.forall_mem_nil _)

/-- The detector takes the drawing apart, asks for anchors, and gives the suggestions. -/
theorem detect_eq {flags : Flags} (hflag : flags.isEnabled (.text "auto_constraints") = true)
    (issued : Nat) {existing : List Constraint} (he : e.id.IsText)
    (hothers : ∀ e' ∈ others, e'.id.IsText) (hexisting : ∀ c ∈ existing, c.NamesTexts) :
    detect flags issued e others existing = (do
      let g ← Graph.ofElements others
      let as ← anchors (flags.isEnabled (.text "auto_constraints_indexed_points")) e
      return suggestions issued existing e as (otherVertices e g)) := by
  unfold detect
  rw [hflag]
  simp only [Bool.not_true, Bool.false_eq_true, if_false]
  cases hg : Graph.ofElements others with
  | error err => rfl
  | ok g =>
    cases has : anchors (flags.isEnabled (.text "auto_constraints_indexed_points")) e with
    | error err => rfl
    | ok as =>
      have hloops := loops_eq issued has hg he hothers hexisting
      show _ = Except.ok (suggestions issued existing e as (otherVertices e g))
      exact bind_eq_ok.mpr ⟨g, rfl, bind_eq_ok.mpr ⟨as, rfl, bind_eq_ok.mpr
        ⟨_, hloops, congrArg Except.ok (considerAxis_told issued existing e as _)⟩⟩⟩

end Drawing

/-- **What is suggested, in closed form.** Among elements with texts for identifiers and constraints
that name things by texts, the pairs that meet are joined in order, once each, and nothing else but
an axis is suggested; suggestions fail only where the drawing cannot be taken apart or the element
has no anchors to ask for. -/
theorem detect_closed_form {flags : Flags}
    (hflag : flags.isEnabled (.text "auto_constraints") = true) (issued : Nat) {e : Element α}
    {others : List (Element α)} {existing : List Constraint} (he : e.id.IsText)
    (hothers : ∀ e' ∈ others, e'.id.IsText) (hexisting : ∀ c ∈ existing, c.NamesTexts) :
    detect flags issued e others existing = (do
      let g ← Graph.ofElements others
      let as ← anchors (flags.isEnabled (.text "auto_constraints_indexed_points")) e
      return suggestions issued existing e as (otherVertices e g)) ∧
    ∀ g as, Graph.ofElements others = .ok g →
      anchors (flags.isEnabled (.text "auto_constraints_indexed_points")) e = .ok as →
      (meetings existing as (otherVertices e g)).Pairwise Apart := by
  refine ⟨detect_eq hflag issued he hothers hexisting, fun g as hg has => ?_⟩
  exact (drawing_apart has hg he hothers).sublist List.filter_sublist

/-- A line from near the center of a circle to near a corner of a rectangle. -/
def slantedLine : Element Float := ⟨.text "l", .line ⟨0.0, 0.0⟩ ⟨100.0, 3.0⟩⟩

/-- The drawing that the line was drawn into, with the line itself. -/
def drawnInto : List (Element Float) :=
  [⟨.text "c", .circle ⟨1.0, 1.0⟩ 5.0⟩,
    ⟨.text "r", .rectangle ⟨98.0, 2.0⟩ ⟨200.0, 50.0⟩⟩,
    slantedLine]

/-- The line begins at the center of the circle, and is horizontal. -/
def knownAlready : List Constraint :=
  [.coincidence (.text "k") (.text "c_center") (.text "l_start"),
    .horizontal (.text "h") (.text "l_line")]

theorem detect_closed_form_slantedLine :
    (match detect .standard 7 slantedLine drawnInto knownAlready with
      | .ok found => found.constraints.map (·.points.map Value.plain) == [["l_end", "r_corner0"]] &&
          found.descriptions == ["Coincident: end to corner0"]
      | .error _ => false) = true := by
  have hothers : ∀ e ∈ drawnInto, e.id.IsText := by
    intro e he
    simp only [drawnInto, List.mem_cons, List.not_mem_nil, or_false] at he
    rcases he with rfl | rfl | rfl <;> exact ⟨_, rfl⟩
  have hknown : ∀ c ∈ knownAlready, c.NamesTexts := by
    intro c hc q hq
    simp only [knownAlready, List.mem_cons, List.not_mem_nil, or_false] at hc
    rcases hc with rfl | rfl
    · rcases List.mem_pair.mp hq with rfl | rfl <;> exact ⟨_, rfl⟩
    · exact ⟨_, List.mem_singleton.mp hq⟩
  rw [(detect_closed_form (by decide) 7 ⟨_, rfl⟩ hothers hknown).1]
  decide +kernel

end Suggestion

end Drafting
