import Drafting.Proofs.Failure
import Drafting.System.State

/-!
What compiling does. A name is resolved to the first thing that has it, and fails to be resolved
only if nothing has it or if it is no key. A constraint that fixes something pins exactly the points
it names and the centers of the circles it names; whether a point of a system is pinned can be read
off its own flag and these constraints.

Positions and radii play no part in compiling: over parts of the same names it gives the same pins
and the same equations.
-/

namespace Drafting

variable {α : Type} {n k : Nat}

/-! ## Looking up -/

theorem get_ofFn {β : Type} (f : Fin n → β) (i : Fin n) : (Vector.ofFn f).get i = f i :=
  Vector.getElem_ofFn _

/-- Circles with the same names and centers have the same names. -/
theorem ringIds_of_pairs {rs rs' : List (Ring α)}
    (h : rs'.map (fun r => (r.id, r.center)) = rs.map fun r => (r.id, r.center)) :
    rs'.map (·.id) = rs.map (·.id) := by
  have hfst := congrArg (List.map Prod.fst) h
  simpa [Function.comp_def] using hfst

theorem findFinIdx?_eq_some_iff {β : Type} {xs : Vector β n} {p : β → Bool} {i : Fin n} :
    xs.findFinIdx? p = some i ↔ xs.toList.findIdx? p = some i.val := by
  rw [List.findIdx?_eq_map_findFinIdx?_val, Vector.findFinIdx?_toList, Option.map_map]
  cases xs.findFinIdx? p with
  | none => simp
  | some j => simp [Fin.ext_iff]

theorem find?_toList {β : Type} (xs : Vector β n) (p : β → Bool) :
    xs.toList.find? p = (xs.findFinIdx? p).map xs.get := by
  cases h : xs.findFinIdx? p with
  | none =>
    exact List.find?_eq_none.mpr fun x hx =>
      Vector.findFinIdx?_eq_none_iff.mp h x (Vector.mem_toList_iff.mp hx)
  | some i =>
    rw [List.find?_eq_bind_findIdx?_getElem?, findFinIdx?_eq_some_iff.mp h]
    simp [Vector.get]

/-- The place of the first item with a property depends on what the property is about. -/
theorem findFinIdx?_congr_map {β γ : Type} {xs ys : Vector β n} {f : β → γ}
    (h : ys.toList.map f = xs.toList.map f) (p : γ → Bool) :
    ys.findFinIdx? (fun y => p (f y)) = xs.findFinIdx? fun x => p (f x) := by
  have hidx := congrArg (List.findIdx? p) h
  rw [List.findIdx?_map, List.findIdx?_map] at hidx
  apply Option.ext
  intro i
  rw [findFinIdx?_eq_some_iff, findFinIdx?_eq_some_iff]
  exact iff_of_eq (congrArg (· = some i.val) hidx)

theorem findFinIdx?_isSome {β : Type} {xs : Vector β n} {p : β → Bool} {x : β}
    (hx : x ∈ xs.toList) (hp : p x = true) : ∃ i, xs.findFinIdx? p = some i := by
  cases h : xs.findFinIdx? p with
  | some i => exact ⟨i, rfl⟩
  | none =>
    have hnone := Vector.findFinIdx?_eq_none_iff.mp h x (Vector.mem_toList_iff.mp hx)
    exact absurd hp hnone

theorem Value.asKey_eq_ok {v w : Value} : v.asKey = .ok w ↔ v.isKey = true ∧ v = w := by
  unfold Value.asKey
  split
  · rename_i hkey
    simp [hkey]
  · rename_i hkey
    simp [hkey]

section Resolution

variable {vs : Vector (Vertex α) n} {edges : List Edge} {rs : Vector (Ring α) k} {owner : String}
  {q : Value}

theorem resolvePoint_eq_ok {i : Fin n} :
    resolvePoint vs owner q = .ok i ↔
      q.isKey = true ∧ vs.toList.findIdx? (·.id == q) = some i.val := by
  rw [resolvePoint, bind_eq_ok, ← findFinIdx?_eq_some_iff]
  constructor
  · rintro ⟨w, hw, h⟩
    obtain ⟨hkey, rfl⟩ := Value.asKey_eq_ok.mp hw
    split at h
    · rename_i j hj
      cases h
      exact ⟨hkey, hj⟩
    · cases h
  · rintro ⟨hkey, hi⟩
    exact ⟨q, Value.asKey_eq_ok.mpr ⟨hkey, rfl⟩, by rw [hi]; rfl⟩

/-- The ends of a resolved line are those of the first line with the name. -/
theorem resolveLine_ends {l : LineRef n} (h : resolveLine vs edges owner q = .ok l) :
    ∃ e, edges.find? (·.id == q) = some e ∧ resolvePoint vs owner e.p1 = .ok l.p1 ∧
      resolvePoint vs owner e.p2 = .ok l.p2 := by
  obtain ⟨w, hw, h⟩ := bind_eq_ok.mp h
  obtain ⟨hkey, rfl⟩ := Value.asKey_eq_ok.mp hw
  split at h
  · rename_i e he
    obtain ⟨p1, hp1, h⟩ := bind_eq_ok.mp h
    obtain ⟨p2, hp2, h⟩ := bind_eq_ok.mp h
    cases h
    exact ⟨e, he, hp1, hp2⟩
  · cases h

/-- The center of a resolved circle is that of the first circle with the name. -/
theorem resolveCircle_center {c : CircleRef n k} (h : resolveCircle vs rs owner q = .ok c) :
    ∃ r, rs.toList.find? (·.id == q) = some r ∧ resolvePoint vs owner r.center = .ok c.center := by
  obtain ⟨w, hw, h⟩ := bind_eq_ok.mp h
  obtain ⟨hkey, rfl⟩ := Value.asKey_eq_ok.mp hw
  split at h
  · rename_i i hi
    obtain ⟨center, hcenter, h⟩ := bind_eq_ok.mp h
    cases h
    exact ⟨rs.get i, by rw [find?_toList, hi]; rfl, hcenter⟩
  · cases h

theorem resolvePoint_isOk {v : Vertex α} {name : String} (hv : v ∈ vs.toList)
    (hid : v.id = .text name) : ∃ i, resolvePoint vs owner (.text name) = .ok i := by
  obtain ⟨i, hi⟩ := findFinIdx?_isSome (p := fun u => u.id == .text name) hv (by simp [hid])
  exact ⟨i, resolvePoint_eq_ok.mpr ⟨rfl, findFinIdx?_eq_some_iff.mp hi⟩⟩

theorem resolveLine_isOk {e : Edge} {name : String} (he : e ∈ edges) (hid : e.id = .text name)
    (hclosed : ∀ e ∈ edges, (∃ i, resolvePoint vs owner e.p1 = .ok i) ∧
      ∃ i, resolvePoint vs owner e.p2 = .ok i) :
    ∃ l, resolveLine vs edges owner (.text name) = .ok l := by
  cases hfind : edges.find? (·.id == .text name) with
  | none => exact absurd (List.find?_eq_none.mp hfind e he) (by simp [hid])
  | some first =>
    -- the first edge with the name, which need not be the one that is known to be there
    obtain ⟨⟨i, hi⟩, j, hj⟩ := hclosed first (List.mem_of_find?_eq_some hfind)
    refine ⟨⟨i, j⟩, ?_⟩
    simp only [resolveLine, Value.asKey_text, Bind.bind, Except.bind, hfind, hi, hj]
    rfl

theorem resolveCircle_isOk {r : Ring α} {name : String} (hr : r ∈ rs.toList)
    (hid : r.id = .text name)
    (hclosed : ∀ r ∈ rs.toList, ∃ i, resolvePoint vs owner r.center = .ok i) :
    ∃ c, resolveCircle vs rs owner (.text name) = .ok c := by
  obtain ⟨j, hj⟩ := findFinIdx?_isSome (p := fun u => u.id == .text name) hr (by simp [hid])
  obtain ⟨i, hi⟩ := hclosed (rs.get j) (by simp [Vector.get])
  refine ⟨⟨i, j⟩, ?_⟩
  simp only [resolveCircle, Value.asKey_text, Bind.bind, Except.bind, hj, hi]
  rfl

end Resolution

/-! ## One constraint -/

namespace Constraint

variable {vs : Vector (Vertex α) n} {edges : List Edge} {rs : Vector (Ring α) k} {c : Constraint}

/-- Everything that a constraint names has a referent. -/
structure Resolves (vs : Vector (Vertex α) n) (edges : List Edge) (rs : Vector (Ring α) k)
    (c : Constraint) : Prop where
  points : ∀ q ∈ c.points, ∃ i, resolvePoint vs c.owner q = .ok i
  lines : ∀ q ∈ c.lines, ∃ l, resolveLine vs edges c.owner q = .ok l
  circles : ∀ q ∈ c.circles, ∃ d, resolveCircle vs rs c.owner q = .ok d

/-- What the names of a constraint resolve to, one by one. -/
structure ResolvesTo (vs : Vector (Vertex α) n) (edges : List Edge) (rs : Vector (Ring α) k)
    (c : Constraint) (points : List (Fin n)) (lines : List (LineRef n))
    (circles : List (CircleRef n k)) : Prop where
  points : List.Forall₂ (fun q i => resolvePoint vs c.owner q = .ok i) c.points points
  lines : List.Forall₂ (fun q l => resolveLine vs edges c.owner q = .ok l) c.lines lines
  circles : List.Forall₂ (fun q d => resolveCircle vs rs c.owner q = .ok d) c.circles circles

/-- **What a constraint compiles to**: its names resolve, and it pins the points it fixes, or gives
the equation of its kind on them with its target, or gives nothing. -/
theorem compile_cases [Scalar α] {part : Contribution α n k}
    (h : c.compile vs edges rs = .ok part) :
    ∃ points lines circles, c.ResolvesTo vs edges rs points lines circles ∧
      ((c.kind = .fixed ∧ part = .pins (points ++ circles.map (·.center))) ∨
      (c.kind ≠ .fixed ∧ ∃ e target, c.kind.equation? points lines circles = some e ∧
        c.target = .ok target ∧ part = .term ⟨c, e, target⟩) ∨
      (c.kind ≠ .fixed ∧ c.kind.equation? points lines circles = none ∧ part = .nothing)) := by
  obtain ⟨points, hpoints, h⟩ := bind_eq_ok.mp h
  obtain ⟨lines, hlines, h⟩ := bind_eq_ok.mp h
  obtain ⟨circles, hcircles, h⟩ := bind_eq_ok.mp h
  refine ⟨points, lines, circles,
    ⟨mapM_eq_ok.mp hpoints, mapM_eq_ok.mp hlines, mapM_eq_ok.mp hcircles⟩, ?_⟩
  split at h
  · rename_i hkind
    cases h
    exact .inl ⟨hkind, rfl⟩
  · rename_i hkind
    split at h
    · rename_i e he
      obtain ⟨target, htarget, h⟩ := bind_eq_ok.mp h
      cases h
      exact .inr (.inl ⟨hkind, e, target, he, htarget, rfl⟩)
    · rename_i he
      obtain ⟨text, _, h⟩ := bind_eq_ok.mp h
      cases h
      exact .inr (.inr ⟨hkind, he, rfl⟩)

/-- A constraint that compiles has referents for all it names. -/
theorem compile_resolves [Scalar α] {part : Contribution α n k}
    (h : c.compile vs edges rs = .ok part) : c.Resolves vs edges rs := by
  obtain ⟨points, lines, circles, ⟨hpoints, hlines, hcircles⟩, _⟩ := compile_cases h
  refine ⟨fun q hq => ?_, fun q hq => ?_, fun q hq => ?_⟩
  · exact (exists_of_forall₂_left hpoints hq).imp fun _ => And.right
  · exact (exists_of_forall₂_left hlines hq).imp fun _ => And.right
  · exact (exists_of_forall₂_left hcircles hq).imp fun _ => And.right

/-- A constraint fixes the point at a place: it names it, or a circle around it. -/
def Fixes (vs : Vector (Vertex α) n) (rs : Vector (Ring α) k) (c : Constraint) (i : Fin n) : Prop :=
  c.kind = .fixed ∧
    ((∃ q ∈ c.points, resolvePoint vs c.owner q = .ok i) ∨
      ∃ q ∈ c.circles, ∃ d, resolveCircle vs rs c.owner q = .ok d ∧ d.center = i)

/-- What a constraint pins is what it fixes. -/
theorem compile_pinned [Scalar α] {part : Contribution α n k}
    (h : c.compile vs edges rs = .ok part) (i : Fin n) : i ∈ part.pinned ↔ c.Fixes vs rs i := by
  obtain ⟨points, lines, circles, ⟨hp, _, hc⟩, ⟨hkind, rfl⟩ | ⟨hkind, _, _, _, _, rfl⟩ |
    ⟨hkind, _, rfl⟩⟩ := compile_cases h
  · simp only [Contribution.pinned, List.mem_append, List.mem_map, Fixes, hkind, true_and]
    constructor
    · rintro (hi | ⟨d, hd, hi⟩)
      · obtain ⟨q, hq, hi⟩ := exists_of_forall₂_right hp hi
        exact .inl ⟨q, hq, hi⟩
      · obtain ⟨q, hq, hqd⟩ := exists_of_forall₂_right hc hd
        exact .inr ⟨q, hq, d, hqd, hi⟩
    · rintro (⟨q, hq, hi⟩ | ⟨q, hq, d, hqd, hi⟩)
      · obtain ⟨j, hj, hqj⟩ := exists_of_forall₂_left hp hq
        exact .inl (by rw [hqj] at hi; cases hi; exact hj)
      · obtain ⟨d', hd', hqd'⟩ := exists_of_forall₂_left hc hq
        exact .inr ⟨d', hd', by rw [hqd'] at hqd; cases hqd; exact hi⟩
  · simp [Contribution.pinned, Fixes, hkind]
  · simp [Contribution.pinned, Fixes, hkind]

end Constraint

/-! ## Failing for want of a referent -/

/-- Whether an error says that a name has no referent. -/
def Error.isDangling : Error → Bool
  | dangling .. => true
  | _ => false

theorem Value.asKey_error {v : Value} {e : Error} (h : v.asKey = .error e) :
    e.isDangling = false := by
  unfold Value.asKey at h
  split at h
  · cases h
  · cases h
    rfl

theorem Value.texts_error {place : Nat} {vs : List Value} {e : Error}
    (h : Value.texts place vs = .error e) : e.isDangling = false := by
  induction vs generalizing place with
  | nil => cases h
  | cons v vs ih =>
    rcases bind_eq_error.mp h with hv | ⟨s, _, h⟩
    · cases v <;> cases hv <;> rfl
    · rcases bind_eq_error.mp h with hvs | ⟨ss, _, h⟩
      · exact ih hvs
      · cases h

theorem Value.toFloat_error {v : Value} {e : Error} (h : v.toFloat = .error e) :
    e.isDangling = false := by
  unfold Value.toFloat at h
  split at h
  · cases h
  · cases h
  · dsimp only at h
    split at h
    · cases h
      rfl
    · cases h
  · split at h
    · cases h
    · cases h
      rfl
  · cases h
    rfl

theorem Constraint.target_error {c : Constraint} {e : Error}
    (h : (c.target : Except Error Float) = .error e) : e.isDangling = false := by
  unfold Constraint.target at h
  split at h
  · cases h
  · exact Value.toFloat_error h

/-- A constraint whose names have referents does not fail for want of one. -/
theorem Constraint.Resolves.compile_error {vs : Vector (Vertex Float) n} {edges : List Edge}
    {rs : Vector (Ring Float) k} {c : Constraint} (hc : c.Resolves vs edges rs) {e : Error}
    (h : c.compile vs edges rs = .error e) : e.isDangling = false := by
  obtain ⟨points, hpoints⟩ := mapM_isOk hc.points
  obtain ⟨lines, hlines⟩ := mapM_isOk hc.lines
  obtain ⟨circles, hcircles⟩ := mapM_isOk hc.circles
  simp only [compile, hpoints, hlines, hcircles, Bind.bind, Except.bind] at h
  -- all names are resolved: what can fail now is reading the value, or joining names for a note
  split at h
  · cases h
  · split at h
    · split at h
      · rename_i err herr
        cases h
        exact target_error herr
      · cases h
    · split at h
      · rename_i err herr
        cases h
        rcases bind_eq_error.mp herr with htexts | ⟨names, _, herr⟩
        · exact Value.texts_error htexts
        · cases herr
      · cases h

/-! ## Whole systems -/

namespace System

variable {vs : Vector (Vertex α) n} {edges : List Edge} {rs : Vector (Ring α) k}
  {cs : List Constraint} {o : Options α}

/-- A compiled system has the points, circles and parameters that were given, and a point of it is
pinned by its own flag or by an enabled constraint. -/
theorem compile_eq_ok [Scalar α] {s : System α n k} (h : compile vs edges rs cs o = .ok s) :
    s.vertices = vs ∧ s.rings = rs ∧ s.options = o ∧
      ∀ i, s.pinned.get i = true ↔
        (vs.get i).fixed.truthy = true ∨ ∃ c ∈ cs, c.isEnabled = true ∧ c.Fixes vs rs i := by
  obtain ⟨_, _, h⟩ := bind_eq_ok.mp h
  obtain ⟨parts, hparts, h⟩ := bind_eq_ok.mp h
  cases h
  refine ⟨rfl, rfl, rfl, fun i => ?_⟩
  have hpins : i ∈ parts.flatMap (·.pinned) ↔
      ∃ c ∈ cs, c.isEnabled = true ∧ c.Fixes vs rs i := by
    have hparts := mapM_eq_ok.mp hparts
    rw [List.mem_flatMap]
    constructor
    · rintro ⟨part, hpart, hi⟩
      obtain ⟨c, hc, hcompile⟩ := exists_of_forall₂_right hparts hpart
      obtain ⟨hc, henabled⟩ := List.mem_filter.mp hc
      exact ⟨c, hc, henabled, (Constraint.compile_pinned hcompile i).mp hi⟩
    · rintro ⟨c, hc, henabled, hfixes⟩
      obtain ⟨part, hpart, hcompile⟩ :=
        exists_of_forall₂_left hparts (List.mem_filter.mpr ⟨hc, henabled⟩)
      exact ⟨part, hpart, (Constraint.compile_pinned hcompile i).mpr hfixes⟩
  rw [← hpins, get_ofFn]
  simp

theorem compile_resolves [Scalar α] {s : System α n k} (h : compile vs edges rs cs o = .ok s)
    {c : Constraint} (hc : c ∈ cs) (henabled : c.isEnabled = true) : c.Resolves vs edges rs := by
  obtain ⟨_, _, h⟩ := bind_eq_ok.mp h
  obtain ⟨parts, hparts, h⟩ := bind_eq_ok.mp h
  obtain ⟨part, _, hpart⟩ :=
    exists_of_forall₂_left (mapM_eq_ok.mp hparts) (List.mem_filter.mpr ⟨hc, henabled⟩)
  exact Constraint.compile_resolves hpart

/-- Compiling fails for want of a referent only if some enabled constraint does. -/
theorem compile_error {vs : Vector (Vertex Float) n} {rs : Vector (Ring Float) k}
    {o : Options Float} {e : Error} (h : compile vs edges rs cs o = .error e)
    (hcs : ∀ c ∈ cs, c.Resolves vs edges rs) : e.isDangling = false := by
  rcases bind_eq_error.mp h with hkeys | ⟨_, _, h⟩
  · obtain ⟨v, _, hv⟩ := mapM_eq_error hkeys
    exact Value.asKey_error hv
  · rcases bind_eq_error.mp h with hparts | ⟨parts, _, h⟩
    · obtain ⟨c, hc, herr⟩ := mapM_eq_error hparts
      exact (hcs c (List.mem_of_mem_filter hc)).compile_error herr
    · cases h

end System

/-! ## Parts of the same names -/

section SameNames

variable {vs vs' : Vector (Vertex α) n} {edges : List Edge} {rs rs' : Vector (Ring α) k}

/-- Names, and the names of centers, are all that is resolved. -/
structure SameParts (vs vs' : Vector (Vertex α) n) (rs rs' : Vector (Ring α) k) : Prop where
  vertices : vs'.toList.map (·.id) = vs.toList.map (·.id)
  rings : rs'.toList.map (fun r => (r.id, r.center)) = rs.toList.map fun r => (r.id, r.center)

namespace SameParts

theorem ringIds (h : SameParts vs vs' rs rs') :
    rs'.toList.map (·.id) = rs.toList.map (·.id) :=
  ringIds_of_pairs h.rings

theorem center (h : SameParts vs vs' rs rs') (i : Fin k) :
    (rs'.get i).center = (rs.get i).center := by
  have hi : (rs'.get i).id = (rs.get i).id ∧ (rs'.get i).center = (rs.get i).center := by
    have hi := congrArg (·[i.val]?) h.rings
    simp only [List.getElem?_map] at hi
    simpa [Vector.get] using hi
  exact hi.2

theorem resolvePoint (h : SameParts vs vs' rs rs') (owner : String) (q : Value) :
    resolvePoint vs' owner q = Drafting.resolvePoint vs owner q := by
  unfold Drafting.resolvePoint
  congr 1
  funext id
  rw [findFinIdx?_congr_map h.vertices (· == id)]

theorem resolveLine (h : SameParts vs vs' rs rs') (owner : String) (q : Value) :
    resolveLine vs' edges owner q = Drafting.resolveLine vs edges owner q := by
  unfold Drafting.resolveLine
  simp only [h.resolvePoint]

theorem resolveCircle (h : SameParts vs vs' rs rs') (owner : String) (q : Value) :
    resolveCircle vs' rs' owner q = Drafting.resolveCircle vs rs owner q := by
  unfold Drafting.resolveCircle
  congr 1
  funext id
  simp only [findFinIdx?_congr_map h.ringIds (· == id), h.resolvePoint, h.center]

theorem compile [Scalar α] (h : SameParts vs vs' rs rs') (c : Constraint) :
    c.compile vs' edges rs' = c.compile vs edges rs := by
  unfold Constraint.compile
  simp only [funext (h.resolvePoint c.owner), funext (h.resolveLine c.owner),
    funext (h.resolveCircle c.owner)]

/-- **Compiling sees names and pins only**: over parts of the same names, where flags are set that
were set before and at most those of points that were pinned, the system has the same pins and
equations. -/
theorem system_of_flags [Scalar α] (h : SameParts vs vs' rs rs') {cs : List Constraint}
    {o : Options α} {s : System α n k} (hs : System.compile vs edges rs cs o = .ok s)
    (hkept : ∀ i, (vs.get i).fixed.truthy = true → (vs'.get i).fixed.truthy = true)
    (hpinned : ∀ i, (vs'.get i).fixed.truthy = true → s.pinned.get i = true) :
    System.compile vs' edges rs' cs o = .ok { s with vertices := vs', rings := rs' } := by
  have hkeys : tableKeys vs' edges rs' = tableKeys vs edges rs := by
    simp [tableKeys, h.vertices, h.ringIds]
  obtain ⟨keys, hmap, hs⟩ := bind_eq_ok.mp hs
  obtain ⟨parts, hparts, hs⟩ := bind_eq_ok.mp hs
  cases hs
  have hpins : ∀ i, ((vs'.get i).fixed.truthy || (parts.flatMap (·.pinned)).contains i) =
      ((vs.get i).fixed.truthy || (parts.flatMap (·.pinned)).contains i) := by
    intro i
    rw [Bool.eq_iff_iff, Bool.or_eq_true, Bool.or_eq_true]
    constructor
    · rintro (hflag | hpin)
      · simpa only [get_ofFn, Bool.or_eq_true] using hpinned i hflag
      · exact .inr hpin
    · rintro (hflag | hpin)
      · exact .inl (hkept i hflag)
      · exact .inr hpin
  refine bind_eq_ok.mpr ⟨keys, by rw [hkeys, hmap], bind_eq_ok.mpr ⟨parts, ?_, ?_⟩⟩
  · simp only [h.compile]
    exact hparts
  · simp only [hpins]
    rfl

/-- Over parts of the same names and flags the system has the same pins and equations. -/
theorem system [Scalar α] (h : SameParts vs vs' rs rs')
    (hfixed : ∀ i, (vs'.get i).fixed = (vs.get i).fixed) {cs : List Constraint} {o : Options α}
    {s : System α n k} (hs : System.compile vs edges rs cs o = .ok s) :
    System.compile vs' edges rs' cs o = .ok { s with vertices := vs', rings := rs' } := by
  obtain ⟨_, _, _, hpinned⟩ := System.compile_eq_ok hs
  refine h.system_of_flags hs (fun i hi => ?_) fun i hi => ?_
  · rw [hfixed i]
    exact hi
  · rw [hfixed i] at hi
    exact (hpinned i).mpr (.inl hi)

end SameParts

end SameNames

end Drafting
