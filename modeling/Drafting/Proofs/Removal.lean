import Mathlib.Data.List.Nodup
import Drafting.Proofs.Compilation
import Drafting.Proofs.PartNames
import Drafting.Proofs.Runs

/-!
What a removal removes. An item is taken out of a list as the first one that agrees with it field by
field, which need not be the item that was found: two constraints may be equal, and an undefined
number is not even equal to itself. Still the right ones go. Where items are taken out for what they
name, or for their identifier, items that agree go together or stay together, so that nothing before
the item that was found agrees with it.

For an element this means that the first one with the identifier goes, and with it exactly the
constraints that name a part of it.
-/

namespace Drafting

/-! ## Taking items out -/

section TakeOut

open Sketch

variable {β : Type} {agrees : β → β → Bool} {p : β → Bool}

/-- If nothing before an item agrees with it, the item itself is taken out. -/
theorem takeOut_append_cons {l r : List (β × Nat)} {x : β × Nat}
    (hplaces : ((l ++ x :: r).map (·.2)).Nodup) (hbefore : ∀ y ∈ l, agrees y.1 x.1 = false) :
    takeOut agrees (l ++ x :: r) x = l ++ r := by
  have hother : ∀ y ∈ l, ¬ (y.2 == x.2 || agrees y.1 x.1) = true := by
    intro y hy
    rw [List.map_append, List.nodup_append] at hplaces
    have hplace : y.2 ≠ x.2 :=
      hplaces.2.2 _ (List.mem_map_of_mem hy) _ (List.mem_map_of_mem List.mem_cons_self)
    simp [hplace, hbefore y hy]
  rw [takeOut, List.eraseP_append_right _ hother, List.eraseP_cons_of_pos (by simp)]

/-- The items with a property are taken out one after the other, and nothing else is, if what agrees
with such an item has the property too. Each time the first item with the property goes, because
before it there is none that could agree. -/
theorem foldl_takeOut (hp : ∀ b c, agrees b c = true → p c = true → p b = true)
    (l xs : List (β × Nat)) (hplaces : ((l ++ xs).map (·.2)).Nodup)
    (hl : ∀ y ∈ l, p y.1 = false) :
    (xs.filter (p ·.1)).foldl (takeOut agrees) (l ++ xs) = l ++ xs.filter (!p ·.1) := by
  induction xs generalizing l with
  | nil => rfl
  | cons x xs ih =>
    by_cases hx : p x.1 = true
    · have hbefore : ∀ y ∈ l, agrees y.1 x.1 = false := by
        intro y hy
        by_contra hagrees
        rw [Bool.not_eq_false] at hagrees
        exact absurd (hp _ _ hagrees hx) (by simp [hl y hy])
      have hrest : ((l ++ xs).map (·.2)).Nodup :=
        hplaces.sublist ((List.sublist_append_right [x] xs).append_left l |>.map _)
      rw [List.filter_cons, if_pos hx, List.filter_cons, if_neg (by simp [hx]), List.foldl_cons,
        takeOut_append_cons hplaces hbefore]
      exact ih l hrest hl
    · rw [Bool.not_eq_true] at hx
      have hlx : ∀ y ∈ l ++ [x], p y.1 = false := by
        intro y hy
        rcases List.mem_append.mp hy with hy | hy
        · exact hl y hy
        · rw [List.mem_singleton.mp hy, hx]
      have h := ih (l ++ [x]) (by simpa using hplaces) hlx
      rw [List.filter_cons, if_neg (by simp [hx]), List.filter_cons, if_pos (by simp [hx])]
      simpa using h

theorem zipIdx_places_nodup (bs : List β) : (bs.zipIdx.map (·.2)).Nodup := by
  rw [List.zipIdx_map_snd]
  exact List.nodup_range'

/-- What is left is what lacks the property, in its order. -/
theorem map_foldl_takeOut (hp : ∀ b c, agrees b c = true → p c = true → p b = true)
    (bs : List β) :
    ((bs.zipIdx.filter (p ·.1)).foldl (takeOut agrees) bs.zipIdx).map (·.1) =
      bs.filter (!p ·) := by
  have h := foldl_takeOut hp [] bs.zipIdx (zipIdx_places_nodup bs) nofun
  rw [List.nil_append, List.nil_append] at h
  rw [h]
  conv_rhs => rw [← List.zipIdx_map_fst 0 bs, List.filter_map]
  rfl

theorem find?_zipIdx (bs : List β) :
    (bs.zipIdx.find? (p ·.1)).map (·.1) = bs.find? p := by
  conv_rhs => rw [← List.zipIdx_map_fst 0 bs, List.find?_map]
  rfl

/-- The first item with a property is taken out, and nothing else is, if what agrees with the item
has the property too. -/
theorem map_takeOut_of_find? {bs : List β} {x : β × Nat}
    (h : bs.zipIdx.find? (p ·.1) = some x) (hp : ∀ b, agrees b x.1 = true → p b = true) :
    ∃ l r, bs = l ++ x.1 :: r ∧ p x.1 = true ∧ (∀ b ∈ l, p b = false) ∧
      (takeOut agrees bs.zipIdx x).map (·.1) = l ++ r := by
  obtain ⟨hx, l, r, hsplit, hbefore⟩ := List.find?_eq_some_iff_append.mp h
  have hl : ∀ y ∈ l, p y.1 = false := fun y hy => by simpa using hbefore y hy
  have hagrees : ∀ y ∈ l, agrees y.1 x.1 = false := by
    intro y hy
    by_contra hy'
    rw [Bool.not_eq_false] at hy'
    exact absurd (hp _ hy') (by simp [hl y hy])
  refine ⟨l.map (·.1), r.map (·.1), ?_, hx, ?_, ?_⟩
  · have hbs := congrArg (List.map (·.1)) hsplit
    rwa [List.zipIdx_map_fst, List.map_append, List.map_cons] at hbs
  · intro b hb
    obtain ⟨y, hy, rfl⟩ := List.mem_map.mp hb
    exact hl y hy
  · have hplaces := zipIdx_places_nodup bs
    rw [hsplit] at hplaces ⊢
    rw [takeOut_append_cons hplaces hagrees, List.map_append]

end TakeOut

/-! ## What agrees goes together -/

theorem Value.same_text_iff {reflexive : Bool} {v : Value} {name : String} :
    v.same reflexive (.text name) = true ↔ v = .text name := by
  cases v with
  | text t => simp [same]
  | null | bool | int | float | issued | list | object => simp [same, number?]

theorem Value.text_same_iff {reflexive : Bool} {v : Value} {name : String} :
    (text name).same reflexive v = true ↔ v = .text name := by
  cases v with
  | text t => exact ⟨fun h => congrArg text (eq_of_beq h).symm, fun h => by simp_all [same]⟩
  | null | bool | int | float | issued | list | object => simp [same, number?]

/-- Of two values that are the same both are among some texts or neither is. -/
theorem contains_of_same {names : List Value} (hnames : ∀ q ∈ names, ∃ name, q = .text name)
    {reflexive : Bool} {v w : Value} (h : v.same reflexive w = true) :
    names.contains v = names.contains w := by
  rw [Bool.eq_iff_iff, List.contains_iff_exists_mem_beq, List.contains_iff_exists_mem_beq]
  constructor
  · rintro ⟨q, hq, hv⟩
    obtain ⟨name, rfl⟩ := hnames q hq
    rw [Value.beq_text_iff] at hv
    subst hv
    exact ⟨_, hq, Value.beq_text_iff.mpr (Value.text_same_iff.mp h)⟩
  · rintro ⟨q, hq, hw⟩
    obtain ⟨name, rfl⟩ := hnames q hq
    rw [Value.beq_text_iff] at hw
    subst hw
    exact ⟨_, hq, Value.beq_text_iff.mpr (Value.same_text_iff.mp h)⟩

theorem any_contains_of_sameItems {names : List Value}
    (hnames : ∀ q ∈ names, ∃ name, q = .text name) {reflexive : Bool} {vs ws : List Value}
    (h : Value.sameItems reflexive vs ws = true) :
    vs.any names.contains = ws.any names.contains := by
  induction vs generalizing ws with
  | nil =>
    cases ws with
    | nil => rfl
    | cons w ws => simp [Value.sameItems] at h
  | cons v vs ih =>
    cases ws with
    | nil => simp [Value.sameItems] at h
    | cons w ws =>
      rw [Value.sameItems, Bool.and_eq_true] at h
      rw [List.any_cons, List.any_cons, contains_of_same hnames h.1, ih h.2]

/-- A constraint names a part of a graph. -/
def Constraint.touches {α : Type} (c : Constraint) (g : Graph α) : Bool :=
  c.references.any g.names.contains

/-- Constraints that agree name the same parts. -/
theorem Constraint.touches_of_agrees {α : Type} {g : Graph α}
    (hg : ∀ q ∈ g.names, ∃ name, q = .text name) {reflexive : Bool} {c d : Constraint}
    (h : c.agrees reflexive d = true) : c.touches g = d.touches g := by
  simp only [agrees, Bool.and_eq_true] at h
  obtain ⟨⟨⟨⟨⟨-, hpoints⟩, hlines⟩, hcircles⟩, -⟩, -⟩ := h
  simp only [touches, references, List.any_append, any_contains_of_sameItems hg hpoints,
    any_contains_of_sameItems hg hlines, any_contains_of_sameItems hg hcircles]

theorem Constraint.id_eq_of_agrees {reflexive : Bool} {c d : Constraint} {name : String}
    (h : c.agrees reflexive d = true) (hd : d.id = .text name) : c.id = .text name := by
  simp only [agrees, Bool.and_eq_true, hd] at h
  exact Value.same_text_iff.mp h.1.1.1.1.1.2

theorem Element.id_eq_of_agrees {e e' : Element Float} {name : String}
    (h : e.agrees e' = true) (he : e'.id = .text name) : e.id = .text name := by
  simp only [agrees, Bool.and_eq_true, he] at h
  exact Value.beq_text_iff.mp h.1

/-- The parts of a drawing have texts for names. -/
theorem Graph.Covers.names_text {α : Type} [Scalar α] {g : Graph α} {es : List (Element α)}
    (hg : g.Covers es) : ∀ q ∈ g.names, ∃ name, q = .text name := by
  intro q hq
  obtain ⟨e, _, hq⟩ := hg.mem_partNames hq
  rw [Element.partNames_eq] at hq
  obtain ⟨label, _, rfl⟩ := List.mem_map.mp hq
  exact ⟨_, rfl⟩

/-! ## Removals -/

theorem mapM_asKey_isOk_iff {vs : List Value} :
    (∃ ws, vs.mapM Value.asKey = .ok ws) ↔ ∀ v ∈ vs, v.isKey = true := by
  constructor
  · rintro ⟨ws, h⟩ v hv
    obtain ⟨w, _, hw⟩ := exists_of_forall₂_left (mapM_eq_ok.mp h) hv
    exact (Value.asKey_eq_ok.mp hw).1
  · exact fun h => mapM_isOk fun v hv => ⟨v, Value.asKey_eq_ok.mpr ⟨h v hv, rfl⟩⟩

namespace Sketch

variable {s : Sketch} {id : Value}

/-- Whatever the constraints of a sketch name can be looked up. -/
def Lookable (s : Sketch) : Prop := ∀ c ∈ s.constraints, ∀ q ∈ c.references, q.isKey = true

theorem constraintsOn_eq_ok {names : List Value} {dropped : List (Constraint × Nat)} :
    s.constraintsOn names = .ok dropped ↔
      s.Lookable ∧
        dropped = s.constraints.zipIdx.filter fun c => c.1.references.any names.contains := by
  have hkeys : s.Lookable ↔
      ∃ ws, (s.constraints.flatMap (·.references)).mapM Value.asKey = .ok ws := by
    rw [mapM_asKey_isOk_iff]
    simp only [Lookable, List.mem_flatMap, forall_exists_index, and_imp]
    exact ⟨fun h v c hc hv => h c hc v hv, fun h c hc v hv => h v c hc hv⟩
  rw [hkeys]
  constructor
  · intro h
    obtain ⟨ws, hws, h⟩ := bind_eq_ok.mp h
    cases h
    exact ⟨⟨ws, hws⟩, rfl⟩
  · rintro ⟨⟨ws, hws⟩, rfl⟩
    exact bind_eq_ok.mpr ⟨ws, hws, rfl⟩

/-- What removing the first element with an identifier does to the sketch: the element is taken out,
and of the constraints those that name a part of it. -/
structure Removes (s : Sketch) (id : Value) (t : Sketch) (n : Nat) (l r : List (Element Float))
    (e : Element Float) (g : Graph Float) : Prop where
  split : s.elements = l ++ e :: r
  found : (e.id == id) = true
  first : ∀ a ∈ l, (a.id == id) = false
  graph : Graph.ofElements [e] = .ok g
  left : t =
    { s with
      elements := l ++ r
      constraints := s.constraints.filter fun c => !c.touches g
      dirty := true }
  count : n = (s.constraints.filter (·.touches g)).length

/-- The element that was found is removed, if its parts and the names of all constraints can be
looked up. -/
theorem removes_of_find? {x : Element Float × Nat}
    (hx : s.elements.zipIdx.find? (·.1.id == id) = some x) {name : String}
    (hname : x.1.id = .text name) {g : Graph Float} (hg : Graph.ofElements [x.1] = .ok g)
    (hkeys : s.Lookable) :
    ∃ t n l r, s.removeElement id = (t, .ok n) ∧ s.Removes id t n l r x.1 g := by
  have hid : (x.1.id == id) = true :=
    List.find?_some (p := fun y : Element Float × Nat => y.1.id == id) hx
  -- an element that agrees with the one that was found has its identifier
  have hsameId : ∀ e : Element Float, e.agrees x.1 = true → (e.id == id) = true := by
    intro e he
    rwa [Element.id_eq_of_agrees he hname, ← hname]
  obtain ⟨l, r, hsplit, hfound, hfirst, helements⟩ :=
    map_takeOut_of_find? (p := fun e : Element Float => e.id == id) hx hsameId
  -- and constraints that agree name the same parts
  have hsameParts : ∀ c d : Constraint, c.agrees false d = true → d.touches g = true →
      c.touches g = true := by
    intro c d hagrees hd
    rwa [Constraint.touches_of_agrees (Graph.ofElements_covers hg).names_text hagrees]
  have hconstraints := map_foldl_takeOut (p := fun c : Constraint => c.touches g) hsameParts
    s.constraints
  have hdropped : (Graph.ofElements [x.1] >>= fun graph => s.constraintsOn graph.names) =
      .ok (s.constraints.zipIdx.filter fun c => c.1.touches g) :=
    bind_eq_ok.mpr ⟨g, hg, constraintsOn_eq_ok.mpr ⟨hkeys, rfl⟩⟩
  refine ⟨_, _, l, r, by simp only [removeElement, hx, hdropped]; rfl, hsplit, hfound, hfirst, hg,
    ?_, ?_⟩
  · rw [helements, hconstraints]
  · conv_rhs => rw [← List.zipIdx_map_fst 0 s.constraints, List.filter_map, List.length_map]
    rfl

/-- Removing an element is possible unless an end of it has no place or a name cannot be looked up,
and then it does what is expected. -/
theorem removeElement_exact (s : Sketch) (id : Value)
    (htext : ∀ e ∈ s.elements, (e.id == id) = true → ∃ name, e.id = .text name) :
    (s.element? id = none ∧ s.removeElement id = (s, .ok 0)) ∨
      ∃ e, s.element? id = some e ∧
        ((∃ err, s.removeElement id = (s, .error err)) ∧
            ¬ (e.shape.hasInfiniteAngle = false ∧ s.Lookable) ∨
          (e.shape.hasInfiniteAngle = false ∧ s.Lookable) ∧
            ∃ t n l r g, s.removeElement id = (t, .ok n) ∧ s.Removes id t n l r e g) := by
  have hfind? := find?_zipIdx (p := fun e : Element Float => e.id == id) s.elements
  cases hx : s.elements.zipIdx.find? (·.1.id == id) with
  | none =>
    rw [hx] at hfind?
    exact .inl ⟨hfind?.symm, by simp only [removeElement, hx]⟩
  | some x =>
    rw [hx] at hfind?
    refine .inr ⟨x.1, hfind?.symm, ?_⟩
    have hgraph : (∃ g, Graph.ofElements [x.1] = .ok g) ↔ x.1.shape.hasInfiniteAngle = false := by
      rw [Graph.ofElements_isOk_iff, List.forall_mem_singleton]
    by_cases hpossible : x.1.shape.hasInfiniteAngle = false ∧ s.Lookable
    · obtain ⟨g, hg⟩ := hgraph.mpr hpossible.1
      obtain ⟨name, hname⟩ := htext x.1 (List.mem_of_find?_eq_some hfind?.symm)
        (List.find?_some (p := fun y : Element Float × Nat => y.1.id == id) hx)
      obtain ⟨t, n, l, r, h, hremoves⟩ := removes_of_find? hx hname hg hpossible.2
      exact .inr ⟨hpossible, t, n, l, r, g, h, hremoves⟩
    · refine .inl ⟨?_, hpossible⟩
      cases hdropped : Graph.ofElements [x.1] >>= fun graph => s.constraintsOn graph.names with
      | error err => exact ⟨err, by simp only [removeElement, hx, hdropped]⟩
      | ok dropped =>
        obtain ⟨g, hg, hon⟩ := bind_eq_ok.mp hdropped
        exact absurd ⟨hgraph.mp ⟨g, hg⟩, (constraintsOn_eq_ok.mp hon).1⟩ hpossible

/-- Removing a constraint takes out the first one with the identifier, if there is one. -/
theorem removeConstraint_exact (s : Sketch) (name : String) :
    (s.constraint? (.text name) = none → s.removeConstraint (.text name) = (s, false)) ∧
      ∀ c, s.constraint? (.text name) = some c → ∃ l r, s.constraints = l ++ c :: r ∧
        c.id = .text name ∧ (∀ d ∈ l, d.id ≠ .text name) ∧
        s.removeConstraint (.text name) =
          ({ s with constraints := l ++ r, dirty := true }, true) := by
  have hfind? := find?_zipIdx (p := fun c : Constraint => c.id == .text name) s.constraints
  cases hx : s.constraints.zipIdx.find? (·.1.id == .text name) with
  | none =>
    rw [hx] at hfind?
    refine ⟨fun _ => by simp only [removeConstraint, hx], fun c hc => ?_⟩
    rw [constraint?, ← hfind?] at hc
    cases hc
  | some x =>
    rw [hx] at hfind?
    refine ⟨fun hnone => ?_, fun c hc => ?_⟩
    · rw [constraint?, ← hfind?] at hnone
      cases hnone
    rw [constraint?, ← hfind?] at hc
    cases hc
    have hid : x.1.id = .text name := Value.beq_text_iff.mp
      (List.find?_some (p := fun y : Constraint × Nat => y.1.id == .text name) hx)
    have hsameId : ∀ c : Constraint, c.agrees false x.1 = true → (c.id == .text name) = true :=
      fun c hc => Value.beq_text_iff.mpr (Constraint.id_eq_of_agrees hc hid)
    obtain ⟨l, r, hsplit, -, hfirst, hleft⟩ :=
      map_takeOut_of_find? (p := fun c : Constraint => c.id == .text name) hx hsameId
    refine ⟨l, r, hsplit, hid, fun d hd hd' => ?_, ?_⟩
    · exact absurd (Value.beq_text_iff.mpr hd') (by rw [hfirst d hd]; nofun)
    · simp only [removeConstraint, hx, hleft]

/-- **Removals are exact.** Whenever removing an element returns, either no element has the
identifier and nothing changes, or the first one goes while the others stay in their order, and of
the constraints exactly those go that name a part of it, however many are equal; the answer is their
number. It returns unless an end of the element has no place or a name cannot be looked up, and then
nothing changes. Removing a constraint takes out the first one with the identifier and no other. -/
theorem removals_exact (s : Sketch) (name : String) :
    (∀ t n, s.removeElement (.text name) = (t, .ok n) →
      (s.element? (.text name) = none ∧ t = s ∧ n = 0) ∨
        ∃ l r e g, s.Removes (.text name) t n l r e g) ∧
    (∀ t err, s.removeElement (.text name) = (t, .error err) → t = s) ∧
    ((∃ n, (s.removeElement (.text name)).2 = .ok n) ↔
      ∀ e, s.element? (.text name) = some e → e.shape.hasInfiniteAngle = false ∧ s.Lookable) ∧
    (s.constraint? (.text name) = none → s.removeConstraint (.text name) = (s, false)) ∧
    ∀ c, s.constraint? (.text name) = some c → ∃ l r, s.constraints = l ++ c :: r ∧
      c.id = .text name ∧ (∀ d ∈ l, d.id ≠ .text name) ∧
      s.removeConstraint (.text name) =
        ({ s with constraints := l ++ r, dirty := true }, true) := by
  have htext : ∀ e ∈ s.elements, (e.id == .text name) = true → ∃ name, e.id = .text name :=
    fun e _ he => ⟨name, Value.beq_text_iff.mp he⟩
  rcases removeElement_exact s (.text name) htext with
    ⟨hnone, h⟩ | ⟨e, he, ⟨⟨err, h⟩, hnot⟩ | ⟨hpossible, t, n, l, r, g, h, hremoves⟩⟩
  · rw [h, hnone]
    refine ⟨?_, nofun, ⟨fun _ => nofun, fun _ => ⟨0, rfl⟩⟩, s.removeConstraint_exact name⟩
    rintro _ _ ⟨⟩
    exact .inl ⟨rfl, rfl, rfl⟩
  · rw [h, he]
    refine ⟨nofun, ?_, ⟨nofun, fun h' => absurd (h' e rfl) hnot⟩, s.removeConstraint_exact name⟩
    rintro _ _ ⟨⟩
    rfl
  · rw [h, he]
    refine ⟨?_, nofun, ⟨fun _ => ?_, fun _ => ⟨n, rfl⟩⟩, s.removeConstraint_exact name⟩
    · rintro _ _ ⟨⟩
      exact .inr ⟨l, r, e, g, hremoves⟩
    · rintro _ ⟨⟩
      exact hpossible

/-- Two lines of one name and a third line. The first and the last constraint agree but for an
undefined number, the two in the middle agree in everything, and all have one identifier. -/
def twins : Sketch where
  id := .text "s"
  elements :=
    [⟨.text "b", .line ⟨0.0, 0.0⟩ ⟨5.0, 0.0⟩⟩, ⟨.text "a", .line ⟨0.0, 1.0⟩ ⟨3.0, 1.0⟩⟩,
      ⟨.text "a", .line ⟨0.0, 1.0⟩ ⟨3.0, 1.0⟩⟩]
  constraints :=
    [.length (.text "k") (.text "a_line") (.float (0.0 / 0.0)),
      .horizontal (.text "k") (.text "b_line"), .horizontal (.text "k") (.text "b_line"),
      .length (.text "k") (.text "a_line") (.float (0.0 / 0.0))]

/-- One of the two lines goes with both constraints on lines of that name. Of the four constraints
of one identifier the first goes. -/
theorem removals_exact_twins :
    (∃ t l r e g, twins.removeElement (.text "a") = (t, .ok 2) ∧
      twins.Removes (.text "a") t 2 l r e g) ∧
    ∃ c r, twins.constraints = c :: r ∧
      twins.removeConstraint (.text "k") =
        ({ twins with constraints := r, dirty := true }, true) := by
  constructor
  · obtain ⟨hreturns, -⟩ := removals_exact twins "a"
    have hanswer : (twins.removeElement (.text "a")).2 = .ok 2 := by rfl
    have h : twins.removeElement (.text "a") = ((twins.removeElement (.text "a")).1, .ok 2) :=
      Prod.ext rfl hanswer
    rcases hreturns _ _ h with ⟨hnone, -⟩ | ⟨l, r, e, g, hremoves⟩
    · cases hnone
    · exact ⟨_, l, r, e, g, h, hremoves⟩
  · obtain ⟨-, -, -, -, hconstraint⟩ := removals_exact twins "k"
    obtain ⟨l, r, hsplit, -, hfirst, h⟩ := hconstraint _ rfl
    cases l with
    | nil => exact ⟨_, r, hsplit, h⟩
    | cons d l =>
      have hd : d.id = .text "k" := congrArg Constraint.id (List.cons.inj hsplit).1.symm
      exact absurd hd (hfirst d List.mem_cons_self)

end Sketch

end Drafting
