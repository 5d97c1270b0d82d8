import Mathlib.Algebra.GroupWithZero.Nat
import Mathlib.Data.List.Perm.Basic
import Drafting.Proofs.Extraction

/-!
The names of the parts of a drawing are different. An element names each of its parts by its own
identifier, a word and perhaps a number, and no two of its parts have the same word and number. A
name tells all three, so that elements with different identifiers have no name in common: every
vertex that is offered for registration is taken, and the graph of a drawing is the graphs of its
elements side by side.

Foreign shapes have no parts. Their identifiers may be any values, and may be those of others.
-/

namespace Drafting

variable {α : Type}

/-! ## The parts of one element -/

/-- A drawn element has one of the seven shapes. -/
def Element.isDrawn (e : Element α) : Bool := e.shape.kind?.isSome

/-- How many vertices a shape has. -/
def Shape.vertexCount : Shape α → Nat
  | line .. | hline .. | vline .. => 2
  | rectangle .. => 4
  | circle .. => 1
  | arc .. => 3
  | spline points => points.length
  | foreign => 0

/-- The words and numbers by which the parts of a shape are named: first those of its vertices,
then those of its edges, then that of its circle. -/
def Shape.labels : Shape α → List (String × Option Nat)
  | line .. | hline .. | vline .. => [("start", none), ("end", none), ("line", none)]
  | rectangle .. =>
    (List.range 4).map (fun i => ("corner", some i)) ++
      (List.range 4).map fun k => ("edge", some k)
  | circle .. => [("center", none), ("circle", none)]
  | arc .. => [("center", none), ("start", none), ("end", none), ("circle", none)]
  | spline points => (List.range points.length).map fun i => ("control", some i)
  | foreign => []

/-- The names of all parts of an element. -/
def Element.partNames (e : Element α) : List Value :=
  e.vertexNames.map Value.text ++ e.edges.map (·.id) ++ e.rings.map (·.id)

theorem Shape.length_slots (shape : Shape α) : shape.slots.length = shape.vertexCount := by
  cases shape with
  | line | hline | vline | rectangle | circle | arc | foreign => rfl
  | spline points => simp [slots, vertexCount]

theorem Shape.labels_isWord (shape : Shape α) : ∀ label ∈ shape.labels, IsWord label.1 := by
  cases shape with
  | line | hline | vline | circle | arc | spline | foreign => simp [labels, IsWord]
  | rectangle start stop =>
    rw [labels, List.forall_mem_append]
    simp [IsWord]

theorem Shape.labels_nodup (shape : Shape α) : shape.labels.Nodup := by
  cases shape with
  | line | hline | vline | rectangle | circle | arc | foreign =>
    simp only [labels]
    decide
  | spline points =>
    refine List.Nodup.map (fun i j hij => ?_) List.nodup_range
    simpa using hij

theorem Element.partNames_eq (e : Element α) :
    e.partNames = e.shape.labels.map fun label =>
      .text (partName e.id.plain label.1 label.2) := by
  obtain ⟨id, shape⟩ := e
  cases shape <;>
    simp [partNames, vertexNames, edges, rings, ring, Shape.slots, Shape.labels, vertexName_eq,
      lineName_eq, edgeName_eq, ringName_eq, Role.word, Function.comp_def]

/-- A name in two elements tells that they have the same identifier, and by which word and number
they name the part. -/
theorem Element.labels_inj {e e' : Element α} {label label' : String × Option Nat}
    (hlabel : label ∈ e.shape.labels) (hlabel' : label' ∈ e'.shape.labels)
    (h : partName e.id.plain label.1 label.2 = partName e'.id.plain label'.1 label'.2) :
    e.id.plain = e'.id.plain ∧ label = label' := by
  obtain ⟨hid, hword, hindex⟩ := partName_injective (e.shape.labels_isWord label hlabel)
    (e'.shape.labels_isWord label' hlabel') h
  exact ⟨hid, Prod.ext hword hindex⟩

theorem Element.partNames_nodup (e : Element α) : e.partNames.Nodup := by
  rw [partNames_eq]
  refine e.shape.labels_nodup.map_on fun label hlabel label' hlabel' h => ?_
  exact (labels_inj hlabel hlabel' (Value.text.inj h)).2

theorem Element.partNames_disjoint {e e' : Element α} (h : e.id.plain ≠ e'.id.plain) :
    e.partNames.Disjoint e'.partNames := by
  intro name hname hname'
  rw [partNames_eq] at hname hname'
  obtain ⟨label, hlabel, rfl⟩ := List.mem_map.mp hname
  obtain ⟨label', hlabel', heq⟩ := List.mem_map.mp hname'
  exact h (labels_inj hlabel' hlabel (Value.text.inj heq)).1.symm

/-- **Elements with different identifiers have no name in common.** -/
theorem DistinctIds.partNames_nodup {es : List (Element α)} (hes : DistinctIds es) :
    (es.flatMap Element.partNames).Nodup := by
  rw [List.nodup_flatMap]
  refine ⟨fun e _ => e.partNames_nodup, ?_⟩
  refine (List.pairwise_map.mp hes.nodup).imp_of_mem fun {e e'} he he' hne => ?_
  refine Element.partNames_disjoint fun hplain => hne ?_
  rw [hes.eq he he' hplain]

/-- The names that elements offer, vertices first and then edges and circles, are different. -/
theorem DistinctIds.offered_nodup {es : List (Element α)} (hes : DistinctIds es) :
    ((es.flatMap fun e => e.vertexNames.map Value.text) ++
      (es.flatMap Element.edges).map (·.id) ++ (es.flatMap Element.rings).map (·.id)).Nodup := by
  rw [List.map_flatMap, List.map_flatMap]
  -- element after element instead of kind after kind, the names are the same
  have hpair := List.flatMap_append_perm es (fun e => e.vertexNames.map Value.text)
    fun e => e.edges.map (·.id)
  have hall := List.flatMap_append_perm es
    (fun e => e.vertexNames.map Value.text ++ e.edges.map (·.id)) fun e => e.rings.map (·.id)
  exact ((hpair.append_right _).trans hall).nodup_iff.mpr hes.partNames_nodup

theorem DistinctIds.tail {e : Element α} {es : List (Element α)} (hes : DistinctIds (e :: es)) :
    DistinctIds es where
  text e' he' := hes.text e' (List.mem_cons_of_mem e he')
  nodup := (List.nodup_cons.mp hes.nodup).2

namespace Graph

/-! ## Nothing is dropped -/

/-- Vertices of different names are all registered. -/
theorem foldl_register_of_nodup {vs ws : List (Vertex α)}
    (hnodup : ((ws ++ vs).map (·.id)).Nodup) (hvs : ∀ v ∈ vs, Named v) :
    vs.foldl register ws = ws ++ vs := by
  induction vs generalizing ws with
  | nil => simp
  | cons v vs ih =>
    have hfree : v.id ∉ ws.map (·.id) := by
      intro htaken
      rw [List.map_append, List.nodup_append] at hnodup
      exact hnodup.2.2 v.id htaken v.id (by simp) rfl
    rw [List.append_cons] at hnodup
    rw [List.foldl_cons, register_of_free (hvs v (by simp)) hfree,
      ih hnodup fun w hw => hvs w (by simp [hw])]
    exact (List.append_cons ws v vs).symm

variable [Scalar α]

/-- **No vertex is dropped** where identifiers are different: the vertices of a drawing are those of
its elements, one after the other. -/
theorem ofElements_vertices {es : List (Element α)} (hes : DistinctIds es) {g : Graph α}
    (h : ofElements es = .ok g) :
    ∃ vss, List.Forall₂ (fun e vs => ∃ places, e.shape.places = .ok places ∧
      vs = places.map e.vertexAt) es vss ∧ g.vertices = vss.flatten := by
  obtain ⟨vss, hvss, hvertices, _⟩ := ofElements_eq_ok h
  have hnodup : (vss.flatten.map (·.id)).Nodup := by
    rw [offered_ids hvss]
    exact (List.nodup_append.mp (List.nodup_append.mp hes.offered_nodup).1).1
  refine ⟨vss, hvss, ?_⟩
  rw [hvertices]
  exact foldl_register_of_nodup hnodup fun v hv => named_of_mem_offered hvss hv

/-- The vertices of an element are found among all by the identifier that they keep. -/
theorem filter_owner {es : List (Element α)} {vss : List (List (Vertex α))}
    (h : List.Forall₂ (fun e vs => ∃ places, e.shape.places = .ok places ∧
      vs = places.map e.vertexAt) es vss)
    (hes : DistinctIds es) {e : Element α} (he : e ∈ es) {places : List (Place α)}
    (hplaces : e.shape.places = .ok places) :
    vss.flatten.filter (·.element == e.id) = places.map e.vertexAt := by
  obtain ⟨name, hname⟩ := hes.text e he
  have howns : ∀ v : Vertex α, (v.element == e.id) = true ↔ v.element = e.id := by
    intro v
    rw [hname]
    exact Value.beq_text_iff
  induction h with
  | nil => cases he
  | @cons e' vs' es' vss' hvs' htail ih =>
    obtain ⟨places', hplaces', rfl⟩ := hvs'
    have hnew : ∀ e'' ∈ es', e''.id ≠ e'.id := fun e'' he'' hid =>
      (List.nodup_cons.mp hes.nodup).1 (List.mem_map.mpr ⟨e'', he'', hid⟩)
    rw [List.flatten_cons, List.filter_append]
    rcases List.mem_cons.mp he with rfl | he
    · -- the element comes first: all of its vertices stay, and none of the others
      obtain rfl : places = places' := by simpa [hplaces] using hplaces'
      have hhead : (places.map e.vertexAt).filter (·.element == e.id) =
          places.map e.vertexAt := by
        refine List.filter_eq_self.mpr fun v hv => (howns v).mpr ?_
        obtain ⟨p, _, rfl⟩ := List.mem_map.mp hv
        rfl
      have hrest : vss'.flatten.filter (·.element == e.id) = [] := by
        refine List.filter_eq_nil_iff.mpr fun v hv hown => ?_
        obtain ⟨e'', he'', _, _, p, _, rfl⟩ := mem_offered htail hv
        exact hnew e'' he'' ((howns _).mp hown)
      rw [hhead, hrest, List.append_nil]
    · have hhead : (places'.map e'.vertexAt).filter (·.element == e.id) = [] := by
        refine List.filter_eq_nil_iff.mpr fun v hv hown => ?_
        obtain ⟨p, _, rfl⟩ := List.mem_map.mp hv
        exact hnew e he ((howns _).mp hown).symm
      rw [hhead, ih hes.tail he, List.nil_append]

/-! ## Whole drawings -/

/-- Foreign shapes are skipped. -/
theorem ofElements_filter_isDrawn (es : List (Element α)) :
    ofElements (es.filter (·.isDrawn)) = ofElements es := by
  unfold ofElements
  rw [List.foldlM_filter]
  congr 1
  funext g e
  obtain ⟨id, shape⟩ := e
  cases shape with
  | line | hline | vline | rectangle | circle | arc | spline => rfl
  | foreign =>
    have hmerge : g.merge {} = g := by simp [merge]
    change Except.ok g = Except.ok (g.merge {})
    rw [hmerge]

/-- The parts of a drawing are parts of its elements. -/
theorem Covers.mem_partNames {g : Graph α} {es : List (Element α)} (hg : g.Covers es)
    {name : Value} (hname : name ∈ g.names) : ∃ e ∈ es, name ∈ e.partNames := by
  unfold Element.partNames
  rcases List.mem_append.mp hname with hname | hname
  · rcases List.mem_append.mp hname with hname | hname
    · obtain ⟨v, hv, rfl⟩ := List.mem_map.mp hname
      obtain ⟨e, he, places, hplaces, p, hp, rfl⟩ := hg.sound v hv
      have hvertex : (e.vertexAt p).id ∈ e.vertexNames.map Value.text :=
        List.mem_map_of_mem (Element.vertexName_mem hplaces hp)
      exact ⟨e, he, List.mem_append_left _ (List.mem_append_left _ hvertex)⟩
    · obtain ⟨edge, hedge, rfl⟩ := List.mem_map.mp hname
      rw [hg.edges] at hedge
      obtain ⟨e, he, hedge⟩ := List.mem_flatMap.mp hedge
      exact ⟨e, he, List.mem_append_left _ (List.mem_append_right _ (List.mem_map_of_mem hedge))⟩
  · obtain ⟨ring, hring, rfl⟩ := List.mem_map.mp hname
    rw [hg.rings] at hring
    obtain ⟨e, he, hring⟩ := List.mem_flatMap.mp hring
    exact ⟨e, he, List.mem_append_right _ (List.mem_map_of_mem hring)⟩

/-- In a closed graph no two vertices have one name, and what the edges and circles refer to are
names of vertices. -/
structure Closed (g : Graph α) : Prop where
  nodup : (g.vertices.map (·.id)).Nodup
  edges : ∀ edge ∈ g.edges,
    edge.p1 ∈ g.vertices.map (·.id) ∧ edge.p2 ∈ g.vertices.map (·.id)
  rings : ∀ ring ∈ g.rings, ring.center ∈ g.vertices.map (·.id)

theorem Covers.closed {g : Graph α} {es : List (Element α)} (hg : g.Covers es) : g.Closed := by
  have hname : ∀ e ∈ es, ∀ name ∈ e.vertexNames, Value.text name ∈ g.vertices.map (·.id) :=
    fun e he name hname => List.mem_map.mpr (hg.complete e he name hname)
  refine ⟨hg.nodup, ?_, ?_⟩
  · intro edge hedge
    rw [hg.edges] at hedge
    obtain ⟨e, he, hedge⟩ := List.mem_flatMap.mp hedge
    obtain ⟨_, ⟨name, hstart, h1⟩, ⟨name', hstop, h2⟩⟩ := Element.edges_closed hedge
    rw [h1, h2]
    exact ⟨hname e he name hstart, hname e he name' hstop⟩
  · intro ring hring
    rw [hg.rings] at hring
    obtain ⟨e, he, hring⟩ := List.mem_flatMap.mp hring
    obtain ⟨_, hcenter, hplace⟩ := Element.rings_closed hring
    rw [hcenter]
    exact hname e he _ hplace

theorem Covers.ringIds_nodup {g : Graph α} {es : List (Element α)} (hg : g.Covers es)
    (hes : DistinctIds es) : (g.rings.map (·.id)).Nodup := by
  rw [hg.rings]
  exact (List.nodup_append.mp hes.offered_nodup).2.1

/-- A graph that keeps elements apart: no two of its parts have one name, be they vertices, edges or
circles, it has every vertex of every element, and those of one element are what that element alone
would give. -/
structure Separates (g : Graph α) (es : List (Element α)) : Prop where
  names : g.names.Nodup
  vertices : g.vertices.map (·.id) = es.flatMap fun e => e.vertexNames.map Value.text
  count : g.vertices.length = (es.map (·.shape.vertexCount)).sum
  verticesOf : ∀ e ∈ es, ∃ h, ofElements [e] = .ok h ∧ g.verticesOf e.id = h.vertices

/-- In a drawing with different identifiers an element has the vertices that it has alone. -/
theorem verticesOf_eq {es : List (Element α)} (hes : DistinctIds es) {g : Graph α}
    (h : ofElements es = .ok g) {e : Element α} (he : e ∈ es) :
    ∃ h, ofElements [e] = .ok h ∧ g.verticesOf e.id = h.vertices := by
  obtain ⟨places, hplaces⟩ := (ofElements_covers h).places e he
  obtain ⟨vss, hvss, hvertices⟩ := ofElements_vertices hes h
  obtain ⟨alone, halone⟩ : ∃ h, ofElements [e] = .ok h :=
    ofElements_isOk fun e' he' => ⟨places, by rw [List.mem_singleton.mp he', hplaces]⟩
  have hsingle : DistinctIds [e] := ⟨by simpa using hes.text e he, by simp⟩
  obtain ⟨vss', hvss', hvertices'⟩ := ofElements_vertices hsingle halone
  refine ⟨alone, halone, ?_⟩
  rw [verticesOf, hvertices, filter_owner hvss hes he hplaces]
  -- alone, the element has one list of vertices, that at its places
  obtain ⟨vs, _, ⟨places', hplaces', rfl⟩, hnil, rfl⟩ := List.forall₂_cons_left_iff.mp hvss'
  obtain rfl := List.forall₂_nil_left_iff.mp hnil
  obtain rfl : places = places' := by simpa [hplaces] using hplaces'
  rw [hvertices', List.flatten_singleton]

/-- **Different identifiers keep elements apart.** -/
theorem ofElements_separates {es : List (Element α)} (hes : DistinctIds es) {g : Graph α}
    (h : ofElements es = .ok g) : g.Separates es := by
  have hg := ofElements_covers h
  obtain ⟨vss, hvss, hvertices⟩ := ofElements_vertices hes h
  have hids : g.vertices.map (·.id) = es.flatMap fun e => e.vertexNames.map Value.text := by
    rw [hvertices, offered_ids hvss]
  refine ⟨?_, hids, ?_, fun e he => verticesOf_eq hes h he⟩
  · rw [names, hids, hg.edges, hg.rings]
    exact hes.offered_nodup
  · have hlength := congrArg List.length hids
    simpa [List.length_flatMap, Element.vertexNames, Shape.length_slots] using hlength

end Graph

/-- **The graph of a drawing is closed, and different identifiers keep its elements apart.** The
elements that count are the drawn ones; their identifiers may be any texts. Where an identifier
occurs twice the graph is closed all the same. -/
theorem extraction_closed_and_unique {α : Type} [Scalar α] {es : List (Element α)} {g : Graph α}
    (h : Graph.ofElements es = .ok g) :
    g.Closed ∧ (DistinctIds (es.filter (·.isDrawn)) → g.Separates (es.filter (·.isDrawn))) := by
  refine ⟨(Graph.ofElements_covers h).closed, fun hes => ?_⟩
  rw [← Graph.ofElements_filter_isDrawn] at h
  exact Graph.ofElements_separates hes h

/-- Elements of all kinds whose identifiers look like the names of parts of one another, with a
foreign one that takes an identifier again. -/
def lookalikes : List (Element Float) :=
  [⟨.text "a", .line ⟨0.0, 0.0⟩ ⟨1.0, 0.0⟩⟩, ⟨.text "a_start", .hline ⟨0.0, 0.0⟩ 2.0⟩,
    ⟨.text "a_line", .vline ⟨0.0, 0.0⟩ 2.0⟩, ⟨.text "a_corner1", .rectangle ⟨0.0, 0.0⟩ ⟨1.0, 1.0⟩⟩,
    ⟨.text "a_circle", .circle ⟨0.0, 0.0⟩ 1.0⟩, ⟨.text "a_", .arc ⟨0.0, 0.0⟩ 1.0 0.0 1.0⟩,
    ⟨.text "", .spline [⟨0.0, 0.0⟩, ⟨1.0, 1.0⟩]⟩, ⟨.text "a", .foreign⟩]

/-- Sixteen vertices, and not one that two elements claim. -/
theorem extraction_closed_and_unique_lookalikes : ∃ g, Graph.ofElements lookalikes = .ok g ∧
    g.Closed ∧ g.names.Nodup ∧ g.vertices.length = 16 := by
  have hplaces : ∀ e ∈ lookalikes, e.shape.places.isOk = true := by decide +kernel
  obtain ⟨g, hg⟩ := Graph.ofElements_isOk fun e he => exists_eq_ok_of_isOk (hplaces e he)
  obtain ⟨hclosed, hseparates⟩ := extraction_closed_and_unique hg
  have hdistinct : DistinctIds (lookalikes.filter (·.isDrawn)) :=
    ⟨by simp [lookalikes, Element.isDrawn, Shape.kind?],
      by simp [lookalikes, Element.isDrawn, Shape.kind?]⟩
  refine ⟨g, hg, hclosed, (hseparates hdistinct).names, ?_⟩
  rw [(hseparates hdistinct).count]
  rfl

end Drafting
