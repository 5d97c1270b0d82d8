import Drafting.Proofs.Compilation
import Drafting.Proofs.Extraction
import Drafting.Graph.Implicit
import Drafting.Suggestion

/-!
References into a drawing. A constraint refers to a drawing if everything it names is the name of a
part of some element. Compiling, suggesting, keeping rectangles along the axes and writing back make
these names each on their own; the names agree, and a constraint that refers to a drawing has a
referent for all it names in the graph of the drawing, even where elements share an identifier and
only the first of several vertices with one name is kept.
-/

namespace Drafting

variable {α : Type}

/-! ## Constraints -/

/-- Everything that a constraint names is a part of some element. -/
structure Constraint.RefersTo (c : Constraint) (es : List (Element α)) : Prop where
  points : ∀ q ∈ c.points, ∃ e ∈ es, ∃ name ∈ e.vertexNames, q = .text name
  lines : ∀ q ∈ c.lines, ∃ e ∈ es, ∃ edge ∈ e.edges, q = edge.id
  circles : ∀ q ∈ c.circles, ∃ e ∈ es, ∃ ring ∈ e.rings, q = ring.id

/-- An element has all the parts of another, by name. -/
structure Element.Provides (e e' : Element α) : Prop where
  vertices : e.vertexNames ⊆ e'.vertexNames
  edges : e.edges.map (·.id) ⊆ e'.edges.map (·.id)
  rings : e.rings.map (·.id) ⊆ e'.rings.map (·.id)

theorem Element.Provides.refl (e : Element α) : e.Provides e :=
  ⟨fun _ h => h, fun _ h => h, fun _ h => h⟩

theorem Element.Alike.provides {e e' : Element α} (h : Element.Alike e e') : e.Provides e' := by
  refine ⟨by rw [h.vertexNames]; exact fun _ h => h, by rw [h.edges]; exact fun _ h => h, ?_⟩
  have hids := congrArg (List.map Prod.fst) h.rings
  simp only [List.map_map, Function.comp_def] at hids
  rw [hids]
  exact fun _ h => h

/-- References survive as long as every element is there in some form that has its parts. -/
theorem Constraint.RefersTo.mono {c : Constraint} {es es' : List (Element α)}
    (hc : c.RefersTo es) (h : ∀ e ∈ es, ∃ e' ∈ es', e.Provides e') : c.RefersTo es' := by
  constructor
  · intro q hq
    obtain ⟨e, he, name, hname, rfl⟩ := hc.points q hq
    obtain ⟨e', he', hp⟩ := h e he
    exact ⟨e', he', name, hp.vertices hname, rfl⟩
  · intro q hq
    obtain ⟨e, he, edge, hedge, rfl⟩ := hc.lines q hq
    obtain ⟨e', he', hp⟩ := h e he
    obtain ⟨edge', hedge', hid⟩ := List.mem_map.mp (hp.edges (List.mem_map_of_mem hedge))
    exact ⟨e', he', edge', hedge', hid.symm⟩
  · intro q hq
    obtain ⟨e, he, ring, hring, rfl⟩ := hc.circles q hq
    obtain ⟨e', he', hp⟩ := h e he
    obtain ⟨ring', hring', hid⟩ := List.mem_map.mp (hp.rings (List.mem_map_of_mem hring))
    exact ⟨e', he', ring', hring', hid.symm⟩

theorem Constraint.RefersTo.subset {c : Constraint} {es es' : List (Element α)}
    (hc : c.RefersTo es) (h : es ⊆ es') : c.RefersTo es' :=
  hc.mono fun e he => ⟨e, h he, .refl e⟩

/-! ## Resolution -/

namespace Graph

/-- The points of a graph in their order. -/
def vertexVector (g : Graph α) : Vector (Vertex α) g.vertices.length :=
  ⟨g.vertices.toArray, by simp⟩

/-- The circles of a graph in their order. -/
def ringVector (g : Graph α) : Vector (Ring α) g.rings.length := ⟨g.rings.toArray, by simp⟩

/-- Everything that a constraint names has a referent in the graph. -/
def Resolves (g : Graph α) (c : Constraint) : Prop :=
  Constraint.Resolves g.vertexVector g.edges g.ringVector c

/-- Everything that a constraint names is the name of a part of its sort. -/
structure Lists (g : Graph α) (c : Constraint) : Prop where
  points : ∀ q ∈ c.points, q ∈ g.vertices.map (·.id)
  lines : ∀ q ∈ c.lines, q ∈ g.edges.map (·.id)
  circles : ∀ q ∈ c.circles, q ∈ g.rings.map (·.id)

variable [Scalar α] {g : Graph α} {es : List (Element α)}

theorem Covers.refersTo (hg : g.Covers es) {c : Constraint} (hc : g.Lists c) : c.RefersTo es := by
  constructor
  · intro q hq
    obtain ⟨v, hv, rfl⟩ := List.mem_map.mp (hc.points q hq)
    obtain ⟨e, he, places, hplaces, p, hp, rfl⟩ := hg.sound v hv
    exact ⟨e, he, vertexName e.id p.role p.index, Element.vertexName_mem hplaces hp, rfl⟩
  · intro q hq
    obtain ⟨edge, hedge, rfl⟩ := List.mem_map.mp (hc.lines q hq)
    rw [hg.edges] at hedge
    obtain ⟨e, he, hedge⟩ := List.mem_flatMap.mp hedge
    exact ⟨e, he, edge, hedge, rfl⟩
  · intro q hq
    obtain ⟨ring, hring, rfl⟩ := List.mem_map.mp (hc.circles q hq)
    rw [hg.rings] at hring
    obtain ⟨e, he, hring⟩ := List.mem_flatMap.mp hring
    exact ⟨e, he, ring, hring, rfl⟩

/-- **A constraint that refers to a drawing has referents in its graph.** -/
theorem Covers.resolves (hg : g.Covers es) {c : Constraint} (hc : c.RefersTo es) :
    g.Resolves c := by
  have hpoint : ∀ e ∈ es, ∀ name ∈ e.vertexNames,
      ∃ i, resolvePoint g.vertexVector c.owner (.text name) = .ok i := by
    intro e he name hname
    obtain ⟨v, hv, hid⟩ := hg.complete e he name hname
    exact resolvePoint_isOk hv hid
  constructor
  · intro q hq
    obtain ⟨e, he, name, hname, rfl⟩ := hc.points q hq
    exact hpoint e he name hname
  · intro q hq
    obtain ⟨e, he, edge, hedge, rfl⟩ := hc.lines q hq
    obtain ⟨⟨name, hname⟩, -⟩ := Element.edges_closed hedge
    rw [hname]
    refine resolveLine_isOk (e := edge) ?_ hname ?_
    · rw [hg.edges]
      exact List.mem_flatMap.mpr ⟨e, he, hedge⟩
    · intro other hother
      rw [hg.edges] at hother
      obtain ⟨e', he', hother⟩ := List.mem_flatMap.mp hother
      obtain ⟨-, ⟨n₁, hn₁, h₁⟩, n₂, hn₂, h₂⟩ := Element.edges_closed hother
      rw [h₁, h₂]
      exact ⟨hpoint e' he' n₁ hn₁, hpoint e' he' n₂ hn₂⟩
  · intro q hq
    obtain ⟨e, he, ring, hring, rfl⟩ := hc.circles q hq
    obtain ⟨hid, -, -⟩ := Element.rings_closed hring
    rw [hid]
    refine resolveCircle_isOk (r := ring) ?_ hid ?_
    · change ring ∈ g.rings
      rw [hg.rings]
      exact List.mem_flatMap.mpr ⟨e, he, hring⟩
    · intro other hother
      change other ∈ g.rings at hother
      rw [hg.rings] at hother
      obtain ⟨e', he', hother⟩ := List.mem_flatMap.mp hother
      obtain ⟨-, hcenter, hmem⟩ := Element.rings_closed hother
      rw [hcenter]
      exact hpoint e' he' _ hmem

end Graph

/-! ## Suggested constraints -/

namespace Suggestion

theorem coincide_mem {issued : Nat} {found : Suggestions} {a : Anchor α} {v : Vertex α}
    {c : Constraint} (h : c ∈ (coincide issued found a v).constraints) :
    c ∈ found.constraints ∨ ∃ id, c = .coincidence id (.text a.id) v.id := by
  unfold coincide at h
  dsimp only at h
  split at h
  · rcases List.mem_append.mp h with h | h
    · exact .inl h
    · exact .inr ⟨_, List.mem_singleton.mp h⟩
  · exact .inl h

variable [Scalar α]

theorem anchors_id {indexed : Bool} {e : Element α} {as : List (Anchor α)}
    (h : anchors indexed e = .ok as) {a : Anchor α} (ha : a ∈ as) : a.id ∈ e.vertexNames := by
  obtain ⟨id, shape⟩ := e
  cases shape with
  | line | hline | vline | circle =>
    cases h
    simp only [List.mem_cons, List.not_mem_nil, or_false] at ha
    rcases ha with rfl | rfl <;> simp [Element.vertexNames, Shape.slots]
  | rectangle start stop =>
    cases h
    obtain ⟨i, hi, rfl⟩ := List.mem_mapIdx.mp ha
    have hi4 : i < 4 := hi
    exact List.mem_map.mpr ⟨(.corner, some i),
      List.mem_map.mpr ⟨i, List.mem_range.mpr hi4, rfl⟩, rfl⟩
  | arc center radius x y =>
    obtain ⟨start, _, h⟩ := bind_eq_ok.mp h
    obtain ⟨stop, _, h⟩ := bind_eq_ok.mp h
    cases h
    simp only [List.mem_cons, List.not_mem_nil, or_false] at ha
    rcases ha with rfl | rfl | rfl <;> simp [Element.vertexNames, Shape.slots]
  | spline points =>
    have hcontrol : ∀ i < points.length, vertexName id .control (some i) ∈
        Element.vertexNames (⟨id, .spline points⟩ : Element α) := fun i hi =>
      List.mem_map.mpr ⟨(.control, some i), List.mem_map.mpr ⟨i, List.mem_range.mpr hi, rfl⟩, rfl⟩
    simp only [anchors] at h
    split at h
    · split at h
      · cases h
        simp only [List.mem_cons, List.not_mem_nil, or_false] at ha
        rcases ha with rfl | rfl
        · exact hcontrol 0 (by omega)
        · exact hcontrol (points.length - 1) (by omega)
      · cases h
        cases ha
    · cases h
      cases ha
  | foreign => cases h

theorem consider_cases {issued : Nat} {existing : List Constraint} {found found' : Suggestions}
    {a : Anchor α} {v : Vertex α} (h : consider issued existing found a v = .ok found') :
    found' = found ∨ found' = coincide issued found a v := by
  unfold consider at h
  split at h
  · obtain ⟨b, _, h⟩ := bind_eq_ok.mp h
    cases b with
    | true =>
      cases h
      exact .inl rfl
    | false =>
      cases h
      exact .inr rfl
  · cases h
    exact .inl rfl

theorem considerAxis_mem {issued : Nat} {existing : List Constraint} {found : Suggestions}
    {e : Element α} {c : Constraint} (h : c ∈ (considerAxis issued existing found e).constraints) :
    c ∈ found.constraints ∨
      c.points = [] ∧ c.lines = [.text (lineName e.id)] ∧ c.circles = [] ∧
        c.kind.isDimension = false ∧ e.edges.map (·.id) = [.text (lineName e.id)] := by
  obtain ⟨id, shape⟩ := e
  unfold considerAxis at h
  split at h
  · rename_i start stop hshape
    dsimp only at hshape
    subst hshape
    dsimp only at h
    split at h
    · exact .inl h
    · split at h
      · rcases List.mem_append.mp h with h | h
        · exact .inl h
        · exact .inr (by rw [List.mem_singleton.mp h]; exact ⟨rfl, rfl, rfl, rfl, rfl⟩)
      · split at h
        · rcases List.mem_append.mp h with h | h
          · exact .inl h
          · exact .inr (by rw [List.mem_singleton.mp h]; exact ⟨rfl, rfl, rfl, rfl, rfl⟩)
        · exact .inl h
  · exact .inl h

/-- What is suggested for a new element refers to the drawing with that element. -/
theorem detect_refersTo {flags : Flags} {issued : Nat} {e : Element α} {others : List (Element α)}
    {existing : List Constraint} {found : Suggestions}
    (h : detect flags issued e others existing = .ok found) :
    ∀ c ∈ found.constraints, c.RefersTo (others ++ [e]) := by
  unfold detect at h
  split at h
  · cases h
    exact fun _ hc => nomatch hc
  · obtain ⟨g, hg, h⟩ := bind_eq_ok.mp h
    obtain ⟨as, has, h⟩ := bind_eq_ok.mp h
    obtain ⟨near, hnear, h⟩ := bind_eq_ok.mp h
    cases h
    have hg := Graph.ofElements_covers hg
    -- anchors are points of the new element, and the vertices are those of the others
    have hpair : ∀ (id : Value), ∀ a ∈ as, ∀ v ∈ g.vertices,
        (Constraint.coincidence id (.text a.id) v.id).RefersTo (others ++ [e]) := by
      intro id a ha v hv
      refine ⟨?_, nofun, nofun⟩
      intro q hq
      rcases List.mem_pair.mp hq with rfl | rfl
      · exact ⟨e, by simp, a.id, anchors_id has ha, rfl⟩
      · have hlists : g.Lists { kind := .coincident, id, points := [v.id] } :=
          ⟨by simpa using ⟨v, hv, rfl⟩, nofun, nofun⟩
        obtain ⟨e', he', hname⟩ := (hg.refersTo hlists).points v.id (by simp)
        exact ⟨e', by simp [he'], hname⟩
    have hnear : ∀ c ∈ near.constraints, c.RefersTo (others ++ [e]) := by
      refine foldlM_keeps (P := fun found => ∀ c ∈ found.constraints, c.RefersTo (others ++ [e]))
        hnear (fun _ hc => nomatch hc) ?_
      intro a ha x y hx hy
      refine foldlM_keeps (P := fun found => ∀ c ∈ found.constraints, c.RefersTo (others ++ [e]))
        hy hx ?_
      intro v hv x y hx hy c hc
      rcases consider_cases hy with rfl | rfl
      · exact hx c hc
      · rcases coincide_mem hc with hc | ⟨id, rfl⟩
        · exact hx c hc
        · exact hpair id a ha v (List.mem_of_mem_filter hv)
    intro c hc
    rcases considerAxis_mem hc with hc | ⟨hpoints, hlines, hcircles, _, hedges⟩
    · exact hnear c hc
    · refine ⟨by simp [hpoints], ?_, by simp [hcircles]⟩
      intro q hq
      rw [hlines, ← hedges] at hq
      obtain ⟨edge, hedge, rfl⟩ := List.mem_map.mp hq
      exact ⟨e, by simp, edge, hedge, rfl⟩

end Suggestion

/-! ## Constraints that keep rectangles along the axes -/

namespace Implicit

variable [Scalar α]

theorem put_mem {id : Value} {names : List String} {entries : List (Value × List String)}
    {x : Value × List String} (h : x ∈ put id names entries) : x.2 = names ∨ x ∈ entries := by
  induction entries with
  | nil =>
    obtain rfl := List.mem_singleton.mp h
    exact .inl rfl
  | cons e es ih =>
    unfold put at h
    split at h
    · rcases List.mem_cons.mp h with rfl | h
      · exact .inl rfl
      · exact .inr (List.mem_cons_of_mem _ h)
    · rcases List.mem_cons.mp h with rfl | h
      · exact .inr List.mem_cons_self
      · rcases ih h with h | h
        · exact .inl h
        · exact .inr (List.mem_cons_of_mem _ h)

/-- Only rectangles enter the tables. -/
theorem add_edges {e : Element α} {r r' : Implicit} (h : add r e = .ok r') :
    r'.edges = match e.shape.outline.1 with
      | some .rectangle => put e.id ((List.range 4).map (edgeName e.id)) r.edges
      | _ => r.edges := by
  obtain ⟨id, shape⟩ := e
  cases shape with
  | hline | vline | circle | arc | spline | foreign =>
    cases h
    rfl
  | line =>
    simp only [add] at h
    split at h
    · cases h
      rfl
    · split at h
      · cases h
        rfl
      · cases h
        rfl
  | rectangle =>
    obtain ⟨key, hkey, h⟩ := bind_eq_ok.mp h
    obtain ⟨_, rfl⟩ := Value.asKey_eq_ok.mp hkey
    cases h
    rfl

/-- The edges in the tables are those of rectangles of the drawing. -/
theorem ofElements_edges {es : List (Element α)} {r : Implicit} (h : ofElements es = .ok r) :
    ∀ x ∈ r.edges, ∃ e ∈ es, e.shape.kind? = some .rectangle ∧
      x.2.map Value.text = e.edges.map (·.id) := by
  refine foldlM_keeps (P := fun r : Implicit => ∀ x ∈ r.edges, ∃ e ∈ es,
    e.shape.kind? = some .rectangle ∧ x.2.map Value.text = e.edges.map (·.id)) h
    (fun _ hx => nomatch hx) ?_
  rintro ⟨id, shape⟩ he r r' hr hr' x hx
  rw [add_edges hr'] at hx
  cases shape with
  | line | hline | vline | circle | arc | spline | foreign => exact hr x hx
  | rectangle =>
    rcases put_mem hx with hx | hx
    · exact ⟨_, he, rfl, by rw [hx]; rfl⟩
    · exact hr x hx

theorem rectangleConstraints_mem {issued : Nat} {names : List String} {c : Constraint}
    (h : c ∈ rectangleConstraints issued names) :
    c.points = [] ∧ c.circles = [] ∧ ∃ name ∈ names, c.lines = [.text name] := by
  unfold rectangleConstraints at h
  split at h
  · rename_i a b d e
    simp only [List.mem_cons, List.not_mem_nil, or_false] at h
    rcases h with rfl | rfl | rfl | rfl
    · exact ⟨rfl, rfl, a, by simp, rfl⟩
    · exact ⟨rfl, rfl, b, by simp, rfl⟩
    · exact ⟨rfl, rfl, d, by simp, rfl⟩
    · exact ⟨rfl, rfl, e, by simp, rfl⟩
  · cases h

/-- The constraints that keep rectangles along the axes refer to the drawing. -/
theorem axisConstraints_refersTo {issued : Nat} {es : List (Element α)} {cs : List Constraint}
    (h : axisConstraints issued es = .ok cs) : ∀ c ∈ cs, c.RefersTo es := by
  obtain ⟨r, hr, h⟩ := bind_eq_ok.mp h
  cases h
  intro c hc
  obtain ⟨group, hgroup, hc⟩ := List.mem_flatten.mp hc
  obtain ⟨i, hi, rfl⟩ := List.mem_mapIdx.mp hgroup
  obtain ⟨hpoints, hcircles, name, hname, hlines⟩ := rectangleConstraints_mem hc
  obtain ⟨e, he, -, hedges⟩ := ofElements_edges hr r.edges[i] (List.getElem_mem hi)
  refine ⟨by simp [hpoints], ?_, by simp [hcircles]⟩
  intro q hq
  rw [hlines, List.mem_singleton] at hq
  have hmem : q ∈ e.edges.map (·.id) := by
    rw [← hedges, hq]
    exact List.mem_map_of_mem hname
  obtain ⟨edge, hedge, rfl⟩ := List.mem_map.mp hmem
  exact ⟨e, he, edge, hedge, rfl⟩

/-- A drawing without rectangles has no such constraints. -/
theorem axisConstraints_nil {issued : Nat} {es : List (Element α)} {cs : List Constraint}
    (h : axisConstraints issued es = .ok cs)
    (hes : ∀ e ∈ es, e.shape.kind? ≠ some .rectangle) : cs = [] := by
  obtain ⟨r, hr, h⟩ := bind_eq_ok.mp h
  cases h
  have hnil : r.edges = [] := by
    refine List.eq_nil_iff_forall_not_mem.mpr fun x hx => ?_
    obtain ⟨e, he, hkind, _⟩ := ofElements_edges hr x hx
    exact hes e he hkind
  rw [hnil]
  rfl

/-- Elements whose identifiers are texts have such constraints. -/
theorem axisConstraints_isOk (issued : Nat) {es : List (Element α)}
    (h : ∀ e ∈ es, ∃ name, e.id = .text name) : ∃ cs, axisConstraints issued es = .ok cs := by
  obtain ⟨r, hr⟩ := foldlM_isOk (f := add) ({} : Implicit) fun e he r => by
    obtain ⟨id, shape⟩ := e
    obtain ⟨name, rfl⟩ := h _ he
    cases shape with
    | line start stop =>
      simp only [add]
      split
      · exact ⟨_, rfl⟩
      · split
        · exact ⟨_, rfl⟩
        · exact ⟨_, rfl⟩
    | hline | vline | rectangle | circle | arc | spline | foreign => exact ⟨_, rfl⟩
  exact ⟨_, bind_eq_ok.mpr ⟨r, hr, rfl⟩⟩

/-- Which rectangles are kept depends on identifiers and outlines alone. -/
theorem foldlM_edges {es es' : List (Element α)} (halike : List.Forall₂ Element.Alike es es')
    {r₀ r₀' r r' : Implicit} (hedges : r₀'.edges = r₀.edges) (h : es.foldlM add r₀ = .ok r)
    (h' : es'.foldlM add r₀' = .ok r') : r'.edges = r.edges := by
  induction halike generalizing r₀ r₀' with
  | nil =>
    cases h
    cases h'
    exact hedges
  | cons he _ ih =>
    rw [List.foldlM_cons] at h h'
    obtain ⟨r₁, hr₁, h⟩ := bind_eq_ok.mp h
    obtain ⟨r₁', hr₁', h'⟩ := bind_eq_ok.mp h'
    refine ih ?_ h h'
    rw [add_edges hr₁, add_edges hr₁', he.id, he.outline, hedges]

theorem axisConstraints_alike {es es' : List (Element α)} {cs cs' : List Constraint} {issued : Nat}
    (halike : List.Forall₂ Element.Alike es es') (h : axisConstraints issued es = .ok cs)
    (h' : axisConstraints issued es' = .ok cs') : cs' = cs := by
  obtain ⟨r, hr, h⟩ := bind_eq_ok.mp h
  obtain ⟨r', hr', h'⟩ := bind_eq_ok.mp h'
  cases h
  cases h'
  rw [foldlM_edges halike rfl hr hr']

end Implicit

end Drafting
