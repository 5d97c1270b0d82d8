import Mathlib.Data.List.Nodup
import Drafting.Graph.Extraction
import Drafting.Proofs.Failure
import Drafting.Proofs.Naming
import Drafting.Proofs.WriteBack

/-!
The parts of a drawing. The graph of an element is made of its places, each a role with perhaps a
number at a point, of its edges and of its circles. Which roles and numbers there are depends on the
outline of the shape alone, so that elements that are alike have parts of the same names.

The graph of a drawing has the edges and circles of all elements in order, and their vertices
without those whose name was taken: every name of an element is there, and no name is there twice.
-/

namespace Drafting

variable {α : Type}

/-! ## One element -/

/-- A vertex of a shape: what it is there, and where. -/
structure Place (α : Type) where
  role : Role
  index : Option Nat
  point : Point α

/-- The vertices of a shape. They fail only for an arc with an infinite angle. -/
def Shape.places [Scalar α] : Shape α → Except Error (List (Place α))
  | line start stop => .ok [⟨.start, none, start⟩, ⟨.stop, none, stop⟩]
  | hline start length => .ok [⟨.start, none, start⟩, ⟨.stop, none, hlineEnd start length⟩]
  | vline start length => .ok [⟨.start, none, start⟩, ⟨.stop, none, vlineEnd start length⟩]
  | rectangle start stop =>
    .ok ((rectangleCorners start stop).mapIdx fun i p => ⟨.corner, some i, p⟩)
  | circle center _ => .ok [⟨.center, none, center⟩]
  | arc center radius startAngle endAngle => do
    let start ← pointAtAngle center radius startAngle
    let stop ← pointAtAngle center radius endAngle
    return [⟨.center, none, center⟩, ⟨.start, none, start⟩, ⟨.stop, none, stop⟩]
  | spline points => .ok (points.mapIdx fun i p => ⟨.control, some i, p⟩)
  | foreign => .ok []

/-- The roles and numbers of the vertices of a shape. -/
def Shape.slots : Shape α → List (Role × Option Nat)
  | line .. | hline .. | vline .. => [(.start, none), (.stop, none)]
  | rectangle .. => (List.range 4).map fun i => (.corner, some i)
  | circle .. => [(.center, none)]
  | arc .. => [(.center, none), (.start, none), (.stop, none)]
  | spline points => (List.range points.length).map fun i => (.control, some i)
  | foreign => []

/-- The edges of an element. -/
def Element.edges (e : Element α) : List Edge :=
  match e.shape with
  | .line .. | .hline .. | .vline .. =>
    [⟨.text (lineName e.id), .text (vertexName e.id .start none),
      .text (vertexName e.id .stop none)⟩]
  | .rectangle .. => (List.range 4).map fun k =>
    ⟨.text (edgeName e.id k), .text (vertexName e.id .corner (some k)),
      .text (vertexName e.id .corner (some ((k + 1) % 4)))⟩
  | _ => []

/-- The circles of an element. -/
def Element.rings (e : Element α) : List (Ring α) :=
  match e.shape with
  | .circle _ radius => [e.ring radius]
  | .arc _ radius _ _ => [e.ring radius]
  | _ => []

/-- The vertex of an element at one of its places. -/
def Element.vertexAt (e : Element α) (p : Place α) : Vertex α := e.vertex p.role p.index p.point

/-- The names of the vertices of an element. -/
def Element.vertexNames (e : Element α) : List String :=
  e.shape.slots.map fun slot => vertexName e.id slot.1 slot.2

/-- The graph of an element in terms of its places, edges and circles. -/
theorem Element.graph_eq [Scalar α] (e : Element α) :
    e.graph = e.shape.places.map fun places =>
      { vertices := places.map e.vertexAt, edges := e.edges, rings := e.rings } := by
  obtain ⟨id, shape⟩ := e
  cases shape with
  | line | hline | vline | circle | foreign => rfl
  | rectangle start stop => rfl
  | spline points =>
    simp only [graph, Shape.places, Except.map, edges, rings]
    congr 2
    exact List.ext_getElem (by simp) fun i _ _ => by simp [vertexAt]
  | arc center radius a b =>
    cases hstart : pointAtAngle center radius a with
    | error err => simp [graph, Shape.places, hstart, Bind.bind, Except.bind, Except.map]
    | ok start =>
      cases hstop : pointAtAngle center radius b with
      | error err => simp [graph, Shape.places, hstart, hstop, Bind.bind, Except.bind, Except.map]
      | ok stop =>
        simp only [graph, Shape.places, hstart, hstop, Bind.bind, Except.bind, Except.map]
        rfl

/-- Whether a shape is an arc one of whose ends has no place. -/
def Shape.hasInfiniteAngle [Scalar α] : Shape α → Bool
  | arc _ _ startAngle endAngle => Scalar.isInfinite startAngle || Scalar.isInfinite endAngle
  | _ => false

theorem pointAtAngle_isOk [Scalar α] (center : Point α) (radius angle : α) :
    (∃ p, pointAtAngle center radius angle = .ok p) ↔ Scalar.isInfinite angle = false := by
  unfold pointAtAngle
  cases Scalar.isInfinite angle <;> simp

theorem Shape.places_isOk_iff [Scalar α] {shape : Shape α} :
    (∃ places, shape.places = .ok places) ↔ shape.hasInfiniteAngle = false := by
  cases shape with
  | line | hline | vline | rectangle | circle | spline | foreign =>
    exact ⟨fun _ => rfl, fun _ => ⟨_, rfl⟩⟩
  | arc center radius a b =>
    rw [hasInfiniteAngle, Bool.or_eq_false_iff, ← pointAtAngle_isOk center radius,
      ← pointAtAngle_isOk center radius]
    constructor
    · rintro ⟨places, h⟩
      obtain ⟨start, hstart, h⟩ := bind_eq_ok.mp h
      obtain ⟨stop, hstop, _⟩ := bind_eq_ok.mp h
      exact ⟨⟨start, hstart⟩, stop, hstop⟩
    · rintro ⟨⟨start, hstart⟩, stop, hstop⟩
      exact ⟨_, bind_eq_ok.mpr ⟨start, hstart, bind_eq_ok.mpr ⟨stop, hstop, rfl⟩⟩⟩

theorem Shape.places_slots [Scalar α] {shape : Shape α} {places : List (Place α)}
    (h : shape.places = .ok places) :
    places.map (fun p => (p.role, p.index)) = shape.slots := by
  cases shape with
  | line | hline | vline | circle | foreign =>
    cases h
    rfl
  | rectangle start stop =>
    cases h
    rfl
  | spline points =>
    cases h
    exact List.ext_getElem (by simp [slots]) fun i _ _ => by simp [slots]
  | arc center radius a b =>
    obtain ⟨start, _, h⟩ := bind_eq_ok.mp h
    obtain ⟨stop, _, h⟩ := bind_eq_ok.mp h
    cases h
    rfl

/-- The vertices at the places of a shape have the names of the element. -/
theorem Element.ids_vertexAt [Scalar α] {e : Element α} {places : List (Place α)}
    (h : e.shape.places = .ok places) :
    (places.map e.vertexAt).map (·.id) = e.vertexNames.map Value.text := by
  rw [vertexNames, ← Shape.places_slots h]
  simp [vertexAt, vertex, Function.comp_def]

theorem Element.vertexName_mem [Scalar α] {e : Element α} {places : List (Place α)}
    (h : e.shape.places = .ok places) {p : Place α} (hp : p ∈ places) :
    vertexName e.id p.role p.index ∈ e.vertexNames := by
  rw [vertexNames, ← Shape.places_slots h, List.map_map]
  exact List.mem_map.mpr ⟨p, hp, rfl⟩

theorem Shape.slots_nodup (shape : Shape α) : shape.slots.Nodup := by
  cases shape with
  | line | hline | vline | rectangle | circle | arc | foreign =>
    simp only [slots]
    decide
  | spline points =>
    refine List.Nodup.map (fun i j hij => ?_) List.nodup_range
    simpa using hij

/-- The places of a shape differ in role or number. -/
theorem Shape.places_inj [Scalar α] {shape : Shape α} {places : List (Place α)}
    (h : shape.places = .ok places) {p q : Place α} (hp : p ∈ places) (hq : q ∈ places)
    (hrole : p.role = q.role) (hindex : p.index = q.index) : p = q := by
  have hnodup := shape.slots_nodup
  rw [← Shape.places_slots h] at hnodup
  exact List.inj_on_of_nodup_map hnodup hp hq (by rw [hrole, hindex])

/-- An edge has a text for its name, and its ends are vertices of its element. -/
theorem Element.edges_closed {e : Element α} {edge : Edge} (h : edge ∈ e.edges) :
    (∃ name, edge.id = .text name) ∧ (∃ name ∈ e.vertexNames, edge.p1 = .text name) ∧
      ∃ name ∈ e.vertexNames, edge.p2 = .text name := by
  obtain ⟨id, shape⟩ := e
  cases shape with
  | line | hline | vline =>
    obtain rfl := List.mem_singleton.mp h
    exact ⟨⟨_, rfl⟩, ⟨_, by simp [vertexNames, Shape.slots], rfl⟩,
      ⟨_, by simp [vertexNames, Shape.slots], rfl⟩⟩
  | rectangle start stop =>
    obtain ⟨k, hk, rfl⟩ := List.mem_map.mp h
    have hk4 : k < 4 := List.mem_range.mp hk
    have hcorner : ∀ i < 4, vertexName id .corner (some i) ∈
        vertexNames (⟨id, .rectangle start stop⟩ : Element α) := fun i hi =>
      List.mem_map.mpr ⟨(.corner, some i), List.mem_map.mpr ⟨i, List.mem_range.mpr hi, rfl⟩, rfl⟩
    exact ⟨⟨_, rfl⟩, ⟨_, hcorner k hk4, rfl⟩, ⟨_, hcorner ((k + 1) % 4) (by omega), rfl⟩⟩
  | circle | arc | spline | foreign => cases h

/-- The center of a circle is a vertex of its element. -/
theorem Element.rings_closed {e : Element α} {ring : Ring α} (h : ring ∈ e.rings) :
    ring.id = .text (ringName e.id) ∧ ring.center = .text (vertexName e.id .center none) ∧
      vertexName e.id .center none ∈ e.vertexNames := by
  obtain ⟨id, shape⟩ := e
  cases shape with
  | circle | arc =>
    obtain rfl := List.mem_singleton.mp h
    exact ⟨rfl, rfl, by simp [vertexNames, Shape.slots]⟩
  | line | hline | vline | rectangle | spline | foreign => cases h

section Alike

variable {e e' : Element α} (h : Element.Alike e e')
include h

theorem Element.Alike.vertexNames : e'.vertexNames = e.vertexNames := by
  obtain ⟨id, shape⟩ := e
  obtain ⟨id', shape'⟩ := e'
  obtain ⟨rfl, houtline⟩ := h
  have hslots : shape'.slots = shape.slots := by
    cases shape <;> cases shape' <;> simp_all [Shape.outline, Shape.slots, Shape.kind?]
  simp [Element.vertexNames, hslots]

theorem Element.Alike.edges : e'.edges = e.edges := by
  obtain ⟨id, shape⟩ := e
  obtain ⟨id', shape'⟩ := e'
  obtain ⟨rfl, houtline⟩ := h
  cases shape <;> cases shape' <;> simp_all [Shape.outline, Element.edges, Shape.kind?]

theorem Element.Alike.rings :
    e'.rings.map (fun r => (r.id, r.center)) = e.rings.map fun r => (r.id, r.center) := by
  obtain ⟨id, shape⟩ := e
  obtain ⟨id', shape'⟩ := e'
  obtain ⟨rfl, houtline⟩ := h
  cases shape <;> cases shape' <;>
    simp_all [Shape.outline, Element.rings, Element.ring, Shape.kind?]

end Alike

/-! ## Different identifiers -/

/-- Elements with different texts for identifiers. -/
structure DistinctIds (es : List (Element α)) : Prop where
  text : ∀ e ∈ es, ∃ name, e.id = .text name
  nodup : (es.map (·.id)).Nodup

theorem DistinctIds.eq {es : List (Element α)} (hes : DistinctIds es) {e e' : Element α}
    (he : e ∈ es) (he' : e' ∈ es) (h : e.id.plain = e'.id.plain) : e = e' := by
  obtain ⟨name, hname⟩ := hes.text e he
  obtain ⟨name', hname'⟩ := hes.text e' he'
  refine List.inj_on_of_nodup_map hes.nodup he he' ?_
  rw [hname, hname'] at h ⊢
  exact congrArg Value.text h

/-! ## Registering vertices -/

namespace Graph

theorem foldl_register_mem {vs ws : List (Vertex α)} {v : Vertex α}
    (h : v ∈ vs.foldl register ws) : v ∈ ws ∨ v ∈ vs := by
  induction vs generalizing ws with
  | nil => exact .inl h
  | cons u us ih =>
    rcases ih h with h | h
    · unfold register at h
      split at h
      · exact .inl h
      · rcases List.mem_append.mp h with h | h
        · exact .inl h
        · exact .inr (by simp_all)
    · exact .inr (by simp [h])

theorem subset_foldl_register {vs ws : List (Vertex α)} : ws ⊆ vs.foldl register ws := by
  induction vs generalizing ws with
  | nil => exact fun _ h => h
  | cons u us ih =>
    intro v hv
    apply ih
    unfold register
    split
    · exact hv
    · exact List.mem_append_left _ hv

/-- A vertex has a text for its name, as those of a drawing have. -/
def Named (v : Vertex α) : Prop := ∃ name, v.id = .text name

theorem any_id_iff {ws : List (Vertex α)} {v : Vertex α} (hv : Named v) :
    ws.any (·.id == v.id) = true ↔ v.id ∈ ws.map (·.id) := by
  obtain ⟨name, hname⟩ := hv
  simp only [hname, List.any_eq_true, List.mem_map, Value.beq_text_iff]

theorem register_of_taken {ws : List (Vertex α)} {v : Vertex α} (hv : Named v)
    (h : v.id ∈ ws.map (·.id)) : register ws v = ws :=
  if_pos ((any_id_iff hv).mpr h)

theorem register_of_free {ws : List (Vertex α)} {v : Vertex α} (hv : Named v)
    (h : v.id ∉ ws.map (·.id)) : register ws v = ws ++ [v] :=
  if_neg (mt (any_id_iff hv).mp h)

/-- Every name that is registered is there. -/
theorem foldl_register_name {vs ws : List (Vertex α)} {v : Vertex α} (hv : v ∈ vs)
    (hvs : ∀ w ∈ vs, Named w) : ∃ w ∈ vs.foldl register ws, w.id = v.id := by
  induction vs generalizing ws with
  | nil => cases hv
  | cons u us ih =>
    rcases List.mem_cons.mp hv with rfl | hv
    · -- the vertex is registered now, or an older one has its name
      have hnamed : Named v := hvs v (by simp)
      rw [List.foldl_cons]
      by_cases htaken : v.id ∈ ws.map (·.id)
      · obtain ⟨w, hw, hid⟩ := List.mem_map.mp htaken
        rw [register_of_taken hnamed htaken]
        exact ⟨w, subset_foldl_register hw, hid⟩
      · rw [register_of_free hnamed htaken]
        exact ⟨v, subset_foldl_register (by simp), rfl⟩
    · exact ih hv fun w hw => hvs w (by simp [hw])

/-- No name is there twice. -/
theorem foldl_register_nodup {vs ws : List (Vertex α)} (hnodup : (ws.map (·.id)).Nodup)
    (hvs : ∀ w ∈ vs, Named w) : ((vs.foldl register ws).map (·.id)).Nodup := by
  induction vs generalizing ws with
  | nil => exact hnodup
  | cons u us ih =>
    have hnamed : Named u := hvs u (by simp)
    refine ih ?_ fun w hw => hvs w (by simp [hw])
    by_cases htaken : u.id ∈ ws.map (·.id)
    · rw [register_of_taken hnamed htaken]
      exact hnodup
    · rw [register_of_free hnamed htaken, List.map_append, List.nodup_append]
      refine ⟨hnodup, by simp, ?_⟩
      intro a ha b hb hab
      simp only [List.map_cons, List.map_nil, List.mem_singleton] at hb
      exact htaken (hb ▸ hab ▸ ha)

/-- Which names are registered depends on the names alone. -/
theorem foldl_register_ids {vs vs' ws ws' : List (Vertex α)}
    (hvs : vs'.map (·.id) = vs.map (·.id)) (hws : ws'.map (·.id) = ws.map (·.id)) :
    (vs'.foldl register ws').map (·.id) = (vs.foldl register ws).map (·.id) := by
  induction vs generalizing vs' ws ws' with
  | nil =>
    obtain rfl := List.map_eq_nil_iff.mp hvs
    exact hws
  | cons u us ih =>
    obtain ⟨u', us', rfl, hu, hus⟩ := List.map_eq_cons_iff.mp hvs
    rw [List.foldl_cons, List.foldl_cons]
    refine ih hus ?_
    have hany : ws'.any (·.id == u'.id) = ws.any (·.id == u.id) := by
      have := congrArg (List.any · (· == u.id)) hws
      simpa [List.any_map, Function.comp_def, hu] using this
    unfold register
    rw [hany]
    split
    · exact hws
    · simp [hws, hu]

/-! ## Whole drawings -/

theorem foldl_merge_vertices (gs : List (Graph α)) (g : Graph α) :
    (gs.foldl merge g).vertices = (gs.flatMap (·.vertices)).foldl register g.vertices := by
  induction gs generalizing g with
  | nil => rfl
  | cons h hs ih => rw [List.foldl_cons, ih, List.flatMap_cons, List.foldl_append]; rfl

theorem foldl_merge_edges (gs : List (Graph α)) (g : Graph α) :
    (gs.foldl merge g).edges = g.edges ++ gs.flatMap (·.edges) := by
  induction gs generalizing g with
  | nil => simp
  | cons h hs ih => rw [List.foldl_cons, ih, List.flatMap_cons, ← List.append_assoc]; rfl

theorem foldl_merge_rings (gs : List (Graph α)) (g : Graph α) :
    (gs.foldl merge g).rings = g.rings ++ gs.flatMap (·.rings) := by
  induction gs generalizing g with
  | nil => simp
  | cons h hs ih => rw [List.foldl_cons, ih, List.flatMap_cons, ← List.append_assoc]; rfl

variable [Scalar α]

/-- The graph of a drawing is merged from the graphs of its elements. -/
theorem ofElements_eq (es : List (Element α)) :
    ofElements es = (es.mapM Element.graph).map fun gs => gs.foldl merge {} := by
  -- the fold starts with nothing, but only a statement about any start goes through
  unfold ofElements
  generalize ({} : Graph α) = g
  induction es generalizing g with
  | nil => rfl
  | cons e es ih =>
    rw [List.foldlM_cons, List.mapM_cons]
    cases he : e.graph with
    | error err => rfl
    | ok h =>
      refine (ih (g.merge h)).trans ?_
      cases hes : es.mapM Element.graph with
      | error err => simp [Bind.bind, Except.bind, Except.map]
      | ok hs => simp [Bind.bind, Except.bind, Except.map, Pure.pure, Except.pure]

/-- The vertices that a drawing offers for registration, the edges and the circles. -/
theorem ofElements_eq_ok {es : List (Element α)} {g : Graph α} (h : ofElements es = .ok g) :
    ∃ vss, List.Forall₂ (fun e vs => ∃ places, e.shape.places = .ok places ∧
        vs = places.map e.vertexAt) es vss ∧
      g.vertices = vss.flatten.foldl register [] ∧ g.edges = es.flatMap Element.edges ∧
      g.rings = es.flatMap Element.rings := by
  rw [ofElements_eq] at h
  obtain ⟨gs, hgs, rfl⟩ := map_eq_ok.mp h
  have hparts : List.Forall₂ (fun e (h : Graph α) =>
      (∃ places, e.shape.places = Except.ok places ∧ h.vertices = places.map e.vertexAt) ∧
        h.edges = e.edges ∧ h.rings = e.rings) es gs := by
    refine (mapM_eq_ok.mp hgs).imp fun e h he => ?_
    rw [Element.graph_eq] at he
    obtain ⟨places, hplaces, rfl⟩ := map_eq_ok.mp he
    exact ⟨⟨places, hplaces, rfl⟩, rfl, rfl⟩
  refine ⟨gs.map (·.vertices), ?_, ?_, ?_, ?_⟩
  · exact List.forall₂_map_right_iff.mpr (hparts.imp fun e h he => he.1)
  · rw [foldl_merge_vertices, List.flatMap_def]
  · rw [foldl_merge_edges, List.nil_append]
    exact flatMap_eq_of_forall₂ (hparts.imp fun e h he => he.2.1)
  · rw [foldl_merge_rings, List.nil_append]
    exact flatMap_eq_of_forall₂ (hparts.imp fun e h he => he.2.2)

/-- The names that are offered for registration can be read off the outlines. -/
theorem offered_ids {es : List (Element α)} {vss : List (List (Vertex α))}
    (h : List.Forall₂ (fun e vs => ∃ places, e.shape.places = .ok places ∧
      vs = places.map e.vertexAt) es vss) :
    vss.flatten.map (·.id) = es.flatMap fun e => e.vertexNames.map Value.text := by
  rw [← List.flatMap_id, List.map_flatMap]
  refine flatMap_eq_of_forall₂ (h.imp fun e vs hvs => ?_)
  obtain ⟨places, hplaces, rfl⟩ := hvs
  exact Element.ids_vertexAt hplaces

/-- What is offered for registration is a vertex of an element at one of its places. -/
theorem mem_offered {es : List (Element α)} {vss : List (List (Vertex α))}
    (h : List.Forall₂ (fun e vs => ∃ places, e.shape.places = .ok places ∧
      vs = places.map e.vertexAt) es vss) {v : Vertex α} (hv : v ∈ vss.flatten) :
    ∃ e ∈ es, ∃ places, e.shape.places = .ok places ∧ ∃ p ∈ places, v = e.vertexAt p := by
  obtain ⟨vs, hvs, hv⟩ := List.mem_flatten.mp hv
  obtain ⟨e, he, places, hplaces, rfl⟩ := exists_of_forall₂_right h hvs
  obtain ⟨p, hp, rfl⟩ := List.mem_map.mp hv
  exact ⟨e, he, places, hplaces, p, hp, rfl⟩

theorem named_of_mem_offered {es : List (Element α)} {vss : List (List (Vertex α))}
    (h : List.Forall₂ (fun e vs => ∃ places, e.shape.places = .ok places ∧
      vs = places.map e.vertexAt) es vss) {v : Vertex α} (hv : v ∈ vss.flatten) : Named v := by
  obtain ⟨e, _, _, _, p, _, rfl⟩ := mem_offered h hv
  exact ⟨_, rfl⟩

theorem ofElements_isOk {es : List (Element α)}
    (h : ∀ e ∈ es, ∃ places, e.shape.places = .ok places) : ∃ g, ofElements es = .ok g := by
  obtain ⟨gs, hgs⟩ := mapM_isOk (f := Element.graph) fun e he => by
    obtain ⟨places, hplaces⟩ := h e he
    exact ⟨_, by rw [Element.graph_eq, hplaces]; rfl⟩
  exact ⟨_, by rw [ofElements_eq, hgs]; rfl⟩

/-- What the graph of a drawing holds: elements that all have places, no name of a vertex twice,
only vertices of elements, every name of an element, and the edges and circles of all elements in
order. -/
structure Covers (g : Graph α) (es : List (Element α)) : Prop where
  places : ∀ e ∈ es, ∃ places, e.shape.places = .ok places
  nodup : (g.vertices.map (·.id)).Nodup
  sound : ∀ v ∈ g.vertices, ∃ e ∈ es, ∃ places, e.shape.places = .ok places ∧
    ∃ p ∈ places, v = e.vertexAt p
  complete : ∀ e ∈ es, ∀ name ∈ e.vertexNames, ∃ v ∈ g.vertices, v.id = .text name
  edges : g.edges = es.flatMap Element.edges
  rings : g.rings = es.flatMap Element.rings

/-- **The graph of a drawing covers its elements.** -/
theorem ofElements_covers {es : List (Element α)} {g : Graph α} (h : ofElements es = .ok g) :
    g.Covers es := by
  obtain ⟨vss, hvss, hvertices, hedges, hrings⟩ := ofElements_eq_ok h
  have hnamed : ∀ v ∈ vss.flatten, Named v := fun v hv => named_of_mem_offered hvss hv
  refine ⟨?_, ?_, ?_, ?_, hedges, hrings⟩
  · intro e he
    obtain ⟨_, _, places, hplaces, _⟩ := exists_of_forall₂_left hvss he
    exact ⟨places, hplaces⟩
  · rw [hvertices]
    exact foldl_register_nodup (by simp) hnamed
  · intro v hv
    rw [hvertices] at hv
    rcases foldl_register_mem hv with hv | hv
    · cases hv
    · exact mem_offered hvss hv
  · intro e he name hname
    obtain ⟨vs, hvs, places, hplaces, rfl⟩ := exists_of_forall₂_left hvss he
    rw [Element.vertexNames, ← Shape.places_slots hplaces, List.map_map] at hname
    obtain ⟨p, hp, rfl⟩ := List.mem_map.mp hname
    have hmem : e.vertexAt p ∈ vss.flatten :=
      List.mem_flatten.mpr ⟨_, hvs, List.mem_map.mpr ⟨p, hp, rfl⟩⟩
    rw [hvertices]
    exact foldl_register_name hmem hnamed

theorem ofElements_isOk_iff {es : List (Element α)} :
    (∃ g, ofElements es = .ok g) ↔ ∀ e ∈ es, e.shape.hasInfiniteAngle = false := by
  constructor
  · rintro ⟨g, hg⟩ e he
    exact Shape.places_isOk_iff.mp ((ofElements_covers hg).places e he)
  · intro h
    exact ofElements_isOk fun e he => Shape.places_isOk_iff.mpr (h e he)

/-- All names of the graph of a drawing are texts. -/
theorem Covers.named {g : Graph α} {es : List (Element α)} (hg : g.Covers es) :
    (∀ v ∈ g.vertices, Named v) ∧ ∀ r ∈ g.rings, ∃ name, r.id = .text name := by
  constructor
  · intro v hv
    obtain ⟨e, _, _, _, p, _, rfl⟩ := hg.sound v hv
    exact ⟨_, rfl⟩
  · intro r hr
    rw [hg.rings] at hr
    obtain ⟨e, _, hr⟩ := List.mem_flatMap.mp hr
    exact ⟨_, (Element.rings_closed hr).1⟩

/-- A circle and its center are named for the same element, and the center is there. -/
theorem Covers.ring_center {g : Graph α} {es : List (Element α)} (hg : g.Covers es) {r : Ring α}
    (hr : r ∈ g.rings) {id : Value} (hid : r.id = .text (ringName id)) :
    r.center = .text (vertexName id .center none) ∧ ∃ v ∈ g.vertices, v.id = r.center := by
  rw [hg.rings] at hr
  obtain ⟨e, he, hr⟩ := List.mem_flatMap.mp hr
  obtain ⟨hname, hcenter, hplace⟩ := Element.rings_closed hr
  -- the name of the circle leads back to the element, and so to the name of its center
  have hplain : e.id.plain = id.plain :=
    ringName_injective (Value.text.inj (hname.symm.trans hid))
  have hvertex : vertexName e.id .center none = vertexName id .center none := by
    rw [vertexName_eq, vertexName_eq, hplain]
  obtain ⟨v, hv, hvid⟩ := hg.complete e he _ hplace
  rw [hcenter]
  exact ⟨congrArg Value.text hvertex, v, hv, hvid⟩

/-- In a drawing with different identifiers a name leads back to the place that has it. -/
theorem Covers.vertex_eq {g : Graph α} {es : List (Element α)} (hg : g.Covers es)
    (hes : DistinctIds es) {e : Element α} (he : e ∈ es) {places : List (Place α)}
    (hplaces : e.shape.places = .ok places) {p : Place α} (hp : p ∈ places) {v : Vertex α}
    (hv : v ∈ g.vertices) (hid : v.id = .text (vertexName e.id p.role p.index)) :
    v = e.vertexAt p := by
  obtain ⟨e', he', places', hplaces', p', hp', rfl⟩ := hg.sound v hv
  obtain ⟨hplain, hrole, hindex⟩ := vertexName_injective (Value.text.inj hid)
  obtain rfl := hes.eq he' he hplain
  rw [hplaces] at hplaces'
  cases hplaces'
  rw [Shape.places_inj hplaces hp' hp hrole hindex]

/-- In a drawing with different identifiers a circle is that of the element it is named for. -/
theorem Covers.ring_mem {g : Graph α} {es : List (Element α)} (hg : g.Covers es)
    (hes : DistinctIds es) {e : Element α} (he : e ∈ es) {r : Ring α} (hr : r ∈ g.rings)
    (hid : r.id = .text (ringName e.id)) : r ∈ e.rings := by
  rw [hg.rings] at hr
  obtain ⟨e', he', hr⟩ := List.mem_flatMap.mp hr
  have hnames : ringName e'.id = ringName e.id :=
    Value.text.inj ((Element.rings_closed hr).1.symm.trans hid)
  obtain rfl := hes.eq he' he (ringName_injective hnames)
  exact hr

/-- Two graphs with parts of the same names, in the same order. -/
structure SameNames (g g' : Graph α) : Prop where
  vertices : g'.vertices.map (·.id) = g.vertices.map (·.id)
  edges : g'.edges = g.edges
  rings : g'.rings.map (fun r => (r.id, r.center)) = g.rings.map fun r => (r.id, r.center)

/-- Drawings of elements that are alike have parts of the same names. -/
theorem ofElements_sameNames {es es' : List (Element α)} {g g' : Graph α}
    (halike : List.Forall₂ Element.Alike es es') (h : ofElements es = .ok g)
    (h' : ofElements es' = .ok g') : g.SameNames g' := by
  obtain ⟨vss, hvss, hvertices, hedges, hrings⟩ := ofElements_eq_ok h
  obtain ⟨vss', hvss', hvertices', hedges', hrings'⟩ := ofElements_eq_ok h'
  refine ⟨?_, ?_, ?_⟩
  · rw [hvertices, hvertices']
    refine foldl_register_ids ?_ rfl
    rw [offered_ids hvss, offered_ids hvss']
    exact flatMap_eq_of_forall₂ (halike.imp fun e e' he => by rw [he.vertexNames])
  · rw [hedges, hedges']
    exact flatMap_eq_of_forall₂ (halike.imp fun e e' he => he.edges)
  · rw [hrings, hrings', List.map_flatMap, List.map_flatMap]
    exact flatMap_eq_of_forall₂ (halike.imp fun e e' he => he.rings)

end Graph

end Drafting
