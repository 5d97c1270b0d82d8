import Mathlib.Data.List.Forall2

/-!
Computations that may fail, taken apart. A computation that gave a result went through every one of
its steps, and one that failed did so at one of them. The lemmas speak of `Except` with any type of
errors; everything that the drawing library computes with errors is opened through them.
-/

namespace Drafting

variable {ε α β : Type}

theorem bind_eq_ok {x : Except ε α} {f : α → Except ε β} {b : β} :
    (x >>= f) = .ok b ↔ ∃ a, x = .ok a ∧ f a = .ok b := by
  cases x with
  | error e => simp [Bind.bind, Except.bind]
  | ok a => simp [Bind.bind, Except.bind]

theorem bind_eq_error {x : Except ε α} {f : α → Except ε β} {e : ε} :
    (x >>= f) = .error e ↔ x = .error e ∨ ∃ a, x = .ok a ∧ f a = .error e := by
  cases x with
  | error e => simp [Bind.bind, Except.bind]
  | ok a => simp [Bind.bind, Except.bind]

theorem exists_eq_ok_of_isOk {x : Except ε α} (h : x.isOk = true) : ∃ a, x = .ok a := by
  cases x with
  | error e => cases h
  | ok a => exact ⟨a, rfl⟩

theorem map_eq_ok {x : Except ε α} {f : α → β} {b : β} :
    x.map f = .ok b ↔ ∃ a, x = .ok a ∧ f a = b := by
  cases x with
  | error e => simp [Except.map]
  | ok a => simp [Except.map]

theorem map_eq_error {x : Except ε α} {f : α → β} {e : ε} :
    x.map f = .error e ↔ x = .error e := by
  cases x with
  | error e => simp [Except.map]
  | ok a => simp [Except.map]

/-- A traversal that succeeds has succeeded at every place. -/
theorem mapM_eq_ok {f : α → Except ε β} {as : List α} {bs : List β} :
    as.mapM f = .ok bs ↔ List.Forall₂ (fun a b => f a = .ok b) as bs := by
  induction as generalizing bs with
  | nil =>
    rw [List.mapM_nil, List.forall₂_nil_left_iff]
    exact ⟨fun h => (Except.ok.inj h).symm, fun h => by rw [h]; rfl⟩
  | cons a as ih =>
    rw [List.mapM_cons, bind_eq_ok, List.forall₂_cons_left_iff]
    constructor
    · rintro ⟨b, hb, h⟩
      obtain ⟨bs', hbs, h⟩ := bind_eq_ok.mp h
      exact ⟨b, bs', hb, ih.mp hbs, (Except.ok.inj h).symm⟩
    · rintro ⟨b, bs', hb, hbs, rfl⟩
      exact ⟨b, hb, bind_eq_ok.mpr ⟨bs', ih.mpr hbs, rfl⟩⟩

/-- A traversal that fails does so with the error of some item. -/
theorem mapM_eq_error {f : α → Except ε β} {as : List α} {e : ε}
    (h : as.mapM f = .error e) : ∃ a ∈ as, f a = .error e := by
  induction as with
  | nil => cases h
  | cons a as ih =>
    rw [List.mapM_cons] at h
    rcases bind_eq_error.mp h with ha | ⟨b, _, h⟩
    · exact ⟨a, by simp, ha⟩
    · rcases bind_eq_error.mp h with has | ⟨bs, _, h⟩
      · obtain ⟨c, hc, he⟩ := ih has
        exact ⟨c, by simp [hc], he⟩
      · cases h

theorem mapM_isOk {f : α → Except ε β} {as : List α} (h : ∀ a ∈ as, ∃ b, f a = .ok b) :
    ∃ bs, as.mapM f = .ok bs := by
  cases hbs : as.mapM f with
  | ok bs => exact ⟨bs, rfl⟩
  | error e =>
    obtain ⟨a, ha, he⟩ := mapM_eq_error hbs
    obtain ⟨b, hb⟩ := h a ha
    rw [hb] at he
    cases he

/-- If what was computed of every item gives the item back, so does what was computed of a list. -/
theorem mapM_inverse {f : α → Except ε β} {g : β → Except ε α} {as : List α}
    (h : ∀ a ∈ as, ∃ b, f a = .ok b ∧ g b = .ok a) :
    ∃ bs, as.mapM f = .ok bs ∧ bs.mapM g = .ok as := by
  simp only [mapM_eq_ok]
  induction as with
  | nil => exact ⟨[], .nil, .nil⟩
  | cons a as ih =>
    obtain ⟨b, hf, hg⟩ := h a (by simp)
    obtain ⟨bs, hfs, hgs⟩ := ih fun a' ha' => h a' (by simp [ha'])
    exact ⟨b :: bs, .cons hf hfs, .cons hg hgs⟩

theorem exists_of_forall₂_left {R : α → β → Prop} {as : List α} {bs : List β}
    (h : List.Forall₂ R as bs) {a : α} (ha : a ∈ as) : ∃ b ∈ bs, R a b := by
  obtain ⟨i, hi, rfl⟩ := List.getElem_of_mem ha
  have hj : i < bs.length := h.length_eq ▸ hi
  exact ⟨bs[i], List.getElem_mem hj, h.get hi hj⟩

theorem exists_of_forall₂_right {R : α → β → Prop} {as : List α} {bs : List β}
    (h : List.Forall₂ R as bs) {b : β} (hb : b ∈ bs) : ∃ a ∈ as, R a b :=
  exists_of_forall₂_left h.flip hb

theorem exists_of_map_eq {f : α → β} {as bs : List α} (h : as.map f = bs.map f) {a : α}
    (ha : a ∈ as) : ∃ b ∈ bs, f b = f a := by
  have hmem : f a ∈ bs.map f := by
    rw [← h]
    exact List.mem_map_of_mem ha
  exact List.mem_map.mp hmem

theorem apply_eq_of_map_eq {f : α → β} {as bs : List α} (h : as.map f = bs.map f) {i : Nat}
    {a b : α} (ha : as[i]? = some a) (hb : bs[i]? = some b) : f a = f b := by
  have hi := congrArg (·[i]?) h
  simpa [ha, hb] using hi

theorem flatMap_eq_of_forall₂ {γ : Type} {f : α → List γ} {g : β → List γ} {as : List α}
    {bs : List β} (h : List.Forall₂ (fun a b => g b = f a) as bs) :
    bs.flatMap g = as.flatMap f := by
  induction h with
  | nil => rfl
  | cons hab _ ih => rw [List.flatMap_cons, List.flatMap_cons, hab, ih]

/-- What every step of a fold keeps holds of its result. -/
theorem foldlM_keeps {f : β → α → Except ε β} {P : β → Prop} {as : List α} {b c : β}
    (h : as.foldlM f b = .ok c) (hb : P b)
    (hstep : ∀ a ∈ as, ∀ x y, P x → f x a = .ok y → P y) : P c := by
  induction as generalizing b with
  | nil =>
    cases h
    exact hb
  | cons a as ih =>
    rw [List.foldlM_cons] at h
    obtain ⟨x, hx, h⟩ := bind_eq_ok.mp h
    exact ih h (hstep a (by simp) b x hb hx) fun a' ha' => hstep a' (by simp [ha'])

/-- A fold whose every step goes through from where an invariant holds goes through. -/
theorem foldlM_total {f : β → α → Except ε β} {P : β → Prop} {as : List α} {b : β} (hb : P b)
    (hstep : ∀ a ∈ as, ∀ x, P x → ∃ y, f x a = .ok y ∧ P y) :
    ∃ c, as.foldlM f b = .ok c ∧ P c := by
  induction as generalizing b with
  | nil => exact ⟨b, rfl, hb⟩
  | cons a as ih =>
    obtain ⟨x, hx, hP⟩ := hstep a (by simp) b hb
    obtain ⟨c, hc, hPc⟩ := ih hP fun a' ha' => hstep a' (by simp [ha'])
    exact ⟨c, by rw [List.foldlM_cons]; exact bind_eq_ok.mpr ⟨x, hx, hc⟩, hPc⟩

theorem foldlM_isOk {f : β → α → Except ε β} {as : List α} (b : β)
    (h : ∀ a ∈ as, ∀ x, ∃ y, f x a = .ok y) : ∃ c, as.foldlM f b = .ok c := by
  obtain ⟨c, hc, _⟩ := foldlM_total (P := fun _ => True) (b := b) trivial fun a ha x _ => by
    obtain ⟨y, hy⟩ := h a ha x
    exact ⟨y, hy, trivial⟩
  exact ⟨c, hc⟩

end Drafting
