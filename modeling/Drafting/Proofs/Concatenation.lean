import Mathlib.Data.List.Induction
import Drafting.Proofs.PartNames

/-!
Drawings one after the other. The graph of a drawing that begins with another one is the graph of
that one with what the rest adds to it: all edges and circles of the rest, and those of its vertices
whose names are free. Registering the rest after the beginning keeps out whatever is kept out when
the rest is registered alone, and besides that only the names that the beginning has taken.

Where two drawings share no identifier every name is free, and their graphs stand side by side. So
an element of a new identifier may be put anywhere into a drawing, or taken out of it, and every
part of the other elements keeps its name, its values and its place in the order.
-/

namespace Drafting

variable {α : Type}

namespace Graph

attribute [ext] Graph

/-- Two graphs side by side. -/
instance : Append (Graph α) where
  append g h :=
    { vertices := g.vertices ++ h.vertices
      edges := g.edges ++ h.edges
      rings := g.rings ++ h.rings }

@[simp] theorem vertices_append (g h : Graph α) : (g ++ h).vertices = g.vertices ++ h.vertices :=
  rfl

@[simp] theorem edges_append (g h : Graph α) : (g ++ h).edges = g.edges ++ h.edges := rfl

@[simp] theorem rings_append (g h : Graph α) : (g ++ h).rings = g.rings ++ h.rings := rfl

protected theorem append_assoc (g h k : Graph α) : g ++ h ++ k = g ++ (h ++ k) := by
  ext1 <;> simp

/-- Whether no vertex has a name. -/
def isFree (g : Graph α) (id : Value) : Bool := !g.vertices.any (·.id == id)

/-- What a graph adds to one that is there: its vertices with free names, and all of its edges and
circles. -/
def addition (g h : Graph α) : Graph α := { h with vertices := h.vertices.filter (g.isFree ·.id) }

theorem isFree_iff {g : Graph α} {v : Vertex α} (hv : Named v) :
    g.isFree v.id = true ↔ v.id ∉ g.vertices.map (·.id) := by
  rw [isFree, Bool.not_eq_true', ← Bool.not_eq_true, any_id_iff hv]

theorem addition_append (g h k : Graph α) :
    g.addition (h ++ k) = g.addition h ++ g.addition k := by
  ext1
  · exact List.filter_append ..
  · rfl
  · rfl

/-! ## Registering after others -/

/-- The names that go through the filter are the free ones. -/
theorem mem_freeIds_iff {g : Graph α} {ws : List (Vertex α)} {id : Value} :
    id ∈ (ws.filter (g.isFree ·.id)).map (·.id) ↔
      id ∈ ws.map (·.id) ∧ g.isFree id = true := by
  rw [← List.mem_filter, List.filter_map]
  rfl

/-- One more vertex, registered after those of a graph and some others: the graph keeps it out if it
has the name, and otherwise the others decide. -/
theorem register_append (g : Graph α) (ws : List (Vertex α)) {v : Vertex α} (hv : Named v) :
    register (g.vertices ++ ws.filter (g.isFree ·.id)) v =
      g.vertices ++ (register ws v).filter (g.isFree ·.id) := by
  have hnames : v.id ∈ (g.vertices ++ ws.filter (g.isFree ·.id)).map (·.id) ↔
      v.id ∈ g.vertices.map (·.id) ∨ v.id ∈ ws.map (·.id) := by
    rw [List.map_append, List.mem_append, mem_freeIds_iff, isFree_iff hv]
    tauto
  by_cases hws : v.id ∈ ws.map (·.id)
  · rw [register_of_taken hv hws, register_of_taken hv (hnames.mpr (.inr hws))]
  · rw [register_of_free hv hws, List.filter_append]
    by_cases hg : v.id ∈ g.vertices.map (·.id)
    · have hdropped : ¬ g.isFree v.id = true := mt (isFree_iff hv).mp (not_not.mpr hg)
      rw [register_of_taken hv (hnames.mpr (.inl hg))]
      simp [hdropped]
    · have hkept : g.isFree v.id = true := (isFree_iff hv).mpr hg
      rw [register_of_free hv (mt hnames.mp (not_or.mpr ⟨hg, hws⟩))]
      simp [hkept]

/-- Vertices registered after those of a graph: what registering them alone gives, without those
whose names the graph has. -/
theorem foldl_register_eq (g : Graph α) {vs : List (Vertex α)} (hvs : ∀ v ∈ vs, Named v) :
    vs.foldl register g.vertices =
      g.vertices ++ (vs.foldl register []).filter (g.isFree ·.id) := by
  -- the last vertex is registered last on both sides
  induction vs using List.reverseRecOn with
  | nil => simp
  | append_singleton vs v ih =>
    rw [List.foldl_append, List.foldl_append, ih fun w hw => hvs w (by simp [hw])]
    exact register_append g _ (hvs v (by simp))

/-- Graphs merged into one that is there: what they give alone is added to it. -/
theorem foldl_merge_eq (g : Graph α) {hs : List (Graph α)}
    (hnamed : ∀ h ∈ hs, ∀ v ∈ h.vertices, Named v) :
    hs.foldl merge g = g ++ g.addition (hs.foldl merge {}) := by
  have hvs : ∀ v ∈ hs.flatMap (·.vertices), Named v := by
    intro v hv
    obtain ⟨h, hh, hv⟩ := List.mem_flatMap.mp hv
    exact hnamed h hh v hv
  ext1
  · rw [foldl_merge_vertices, foldl_register_eq g hvs, vertices_append, addition,
      foldl_merge_vertices]
  · rw [foldl_merge_edges, edges_append, addition, foldl_merge_edges, List.nil_append]
  · rw [foldl_merge_rings, rings_append, addition, foldl_merge_rings, List.nil_append]

variable [Scalar α]

theorem named_of_graph {e : Element α} {g : Graph α} (h : e.graph = .ok g) :
    ∀ v ∈ g.vertices, Named v := by
  intro v hv
  rw [Element.graph_eq] at h
  obtain ⟨places, _, rfl⟩ := map_eq_ok.mp h
  obtain ⟨p, _, rfl⟩ := List.mem_map.mp hv
  exact ⟨_, rfl⟩

theorem vertexIds_of_graph {e : Element α} {g : Graph α} (h : e.graph = .ok g) :
    g.vertices.map (·.id) = e.vertexNames.map Value.text := by
  rw [Element.graph_eq] at h
  obtain ⟨places, hplaces, rfl⟩ := map_eq_ok.mp h
  exact Element.ids_vertexAt hplaces

/-- **A drawing of one element** has the graph of the element, no two of whose vertices have one
name. -/
theorem ofElements_singleton (e : Element α) : ofElements [e] = e.graph := by
  unfold ofElements
  rw [List.foldlM_cons]
  cases he : e.graph with
  | error err => rfl
  | ok g =>
    have hnodup : (([] ++ g.vertices : List (Vertex α)).map (·.id)).Nodup := by
      rw [List.nil_append, vertexIds_of_graph he]
      exact (List.nodup_append.mp (List.nodup_append.mp e.partNames_nodup).1).1
    have hmerge : ({} : Graph α).merge g = g := by
      ext1
      · exact foldl_register_of_nodup hnodup (named_of_graph he)
      · rfl
      · rfl
    exact congrArg Except.ok hmerge

/-- **The graph of a drawing and another one after it** is that of the first with what that of the
second adds. -/
theorem ofElements_append (es fs : List (Element α)) :
    ofElements (es ++ fs) = do
      let g ← ofElements es
      let h ← ofElements fs
      return g ++ g.addition h := by
  rw [ofElements_eq, ofElements_eq es, ofElements_eq fs, List.mapM_append]
  cases hgs : es.mapM Element.graph with
  | error err => rfl
  | ok gs =>
    cases hhs : fs.mapM Element.graph with
    | error err => rfl
    | ok hs =>
      have hnamed : ∀ h ∈ hs, ∀ v ∈ h.vertices, Named v := by
        intro h hh
        obtain ⟨f, _, hf⟩ := exists_of_forall₂_right (mapM_eq_ok.mp hhs) hh
        exact named_of_graph hf
      have hmerged := foldl_merge_eq (gs.foldl merge {}) hnamed
      rw [← List.foldl_append] at hmerged
      exact congrArg Except.ok hmerged

end Graph

/-! ## Drawings that share no identifier -/

theorem Element.isDrawn_of_mem_partNames {e : Element α} {name : Value} (h : name ∈ e.partNames) :
    e.isDrawn = true := by
  obtain ⟨id, shape⟩ := e
  cases shape with
  | foreign => cases h
  | line | hline | vline | rectangle | circle | arc | spline => rfl

/-- Two drawings share no identifier: no drawn element of the one has an identifier that reads like
that of a drawn element of the other. Texts read alike only if they are equal. -/
def DisjointIds (es fs : List (Element α)) : Prop :=
  ∀ e ∈ es, ∀ f ∈ fs, e.isDrawn = true → f.isDrawn = true → e.id.plain ≠ f.id.plain

theorem DisjointIds.symm {es fs : List (Element α)} (h : DisjointIds es fs) : DisjointIds fs es :=
  fun f hf e he hdrawn hdrawn' => (h e he f hf hdrawn' hdrawn).symm

theorem disjointIds_append {es fs gs : List (Element α)} :
    DisjointIds es (fs ++ gs) ↔ DisjointIds es fs ∧ DisjointIds es gs := by
  unfold DisjointIds
  rw [← forall₂_and]
  simp only [List.forall_mem_append]

namespace Graph

variable [Scalar α]

/-- Drawings that share no identifier have no name in common. -/
theorem Covers.disjoint_names {g h : Graph α} {es fs : List (Element α)} (hg : g.Covers es)
    (hh : h.Covers fs) (hids : DisjointIds es fs) : g.names.Disjoint h.names := by
  intro name hname hname'
  obtain ⟨e, he, hpart⟩ := hg.mem_partNames hname
  obtain ⟨f, hf, hpart'⟩ := hh.mem_partNames hname'
  have hplain := hids e he f hf (Element.isDrawn_of_mem_partNames hpart)
    (Element.isDrawn_of_mem_partNames hpart')
  exact Element.partNames_disjoint hplain hpart hpart'

/-- Nothing is left out where no name is shared. -/
theorem addition_eq_self {g h : Graph α} {es fs : List (Element α)} (hg : g.Covers es)
    (hh : h.Covers fs) (hids : DisjointIds es fs) : g.addition h = h := by
  have hfree : ∀ v ∈ h.vertices, g.isFree v.id = true := by
    intro v hv
    refine (isFree_iff (hh.named.1 v hv)).mpr fun hid => ?_
    have hname : v.id ∈ g.names := List.mem_append_left _ (List.mem_append_left _ hid)
    have hname' : v.id ∈ h.names :=
      List.mem_append_left _ (List.mem_append_left _ (List.mem_map_of_mem hv))
    exact hg.disjoint_names hh hids hname hname'
  rw [addition, List.filter_eq_self.mpr hfree]

/-- **Drawings that share no identifier have their graphs side by side.** -/
theorem ofElements_append_of_disjointIds {es fs : List (Element α)} (hids : DisjointIds es fs) :
    ofElements (es ++ fs) = do
      let g ← ofElements es
      let h ← ofElements fs
      return g ++ h := by
  rw [ofElements_append]
  cases hg : ofElements es with
  | error err => rfl
  | ok g =>
    cases hh : ofElements fs with
    | error err => rfl
    | ok h =>
      have hself := addition_eq_self (ofElements_covers hg) (ofElements_covers hh) hids
      exact congrArg (fun added => Except.ok (g ++ added)) hself

/-- **An element of a new identifier** puts its graph between those of what is before and what is
after it. What the latter adds is what it adds without the element. -/
theorem ofElements_insert {es fs : List (Element α)} {e : Element α}
    (hids : DisjointIds [e] (es ++ fs)) :
    ofElements (es ++ e :: fs) = do
      let g ← ofElements es
      let k ← ofElements [e]
      let h ← ofElements fs
      return g ++ k ++ g.addition h := by
  obtain ⟨hes, hfs⟩ := disjointIds_append.mp hids
  rw [List.append_cons, List.append_assoc, ofElements_append, ofElements_append_of_disjointIds hfs]
  cases hg : ofElements es with
  | error err => rfl
  | ok g =>
    cases hk : ofElements [e] with
    | error err => rfl
    | ok k =>
      cases hh : ofElements fs with
      | error err => rfl
      | ok h =>
        have hself : g.addition k = k :=
          addition_eq_self (ofElements_covers hg) (ofElements_covers hk) hes.symm
        have hadded : g ++ g.addition (k ++ h) = g ++ k ++ g.addition h := by
          rw [addition_append, hself, Graph.append_assoc]
        exact congrArg Except.ok hadded

/-- A graph `g'` is `g` with `k` put in somewhere: all parts of `g` are there as they were, in the
order in which they were, and have no name in common with what was put in. -/
def Insertion (k g g' : Graph α) : Prop :=
  ∃ front back, g = front ++ back ∧ g' = front ++ k ++ back ∧ k.names.Disjoint g.names

/-- With an element of a new identifier or without it, what is before it gives the same graph and
what is after it adds the same. -/
theorem insertion_of_parts {es fs : List (Element α)} {e : Element α}
    (hids : DisjointIds [e] (es ++ fs)) {front k h : Graph α} (hfront : ofElements es = .ok front)
    (hk : ofElements [e] = .ok k) (hh : ofElements fs = .ok h) :
    ∃ g g', ofElements (es ++ fs) = .ok g ∧ ofElements (es ++ e :: fs) = .ok g' ∧
      Insertion k g g' := by
  have hg : ofElements (es ++ fs) = .ok (front ++ front.addition h) := by
    rw [ofElements_append]
    exact bind_eq_ok.mpr ⟨front, hfront, bind_eq_ok.mpr ⟨h, hh, rfl⟩⟩
  have hg' : ofElements (es ++ e :: fs) = .ok (front ++ k ++ front.addition h) := by
    rw [ofElements_insert hids]
    exact bind_eq_ok.mpr ⟨front, hfront, bind_eq_ok.mpr ⟨k, hk, bind_eq_ok.mpr ⟨h, hh, rfl⟩⟩⟩
  exact ⟨_, _, hg, hg', front, front.addition h, rfl, rfl,
    (ofElements_covers hk).disjoint_names (ofElements_covers hg) hids⟩

/-- An element of a new identifier may be put anywhere into a drawing. -/
theorem ofElements_insertion {es fs : List (Element α)} {e : Element α}
    (hids : DisjointIds [e] (es ++ fs)) {g k : Graph α} (hg : ofElements (es ++ fs) = .ok g)
    (hk : ofElements [e] = .ok k) :
    ∃ g', ofElements (es ++ e :: fs) = .ok g' ∧ Insertion k g g' := by
  have hparts := hg
  rw [ofElements_append] at hparts
  obtain ⟨front, hfront, hparts⟩ := bind_eq_ok.mp hparts
  obtain ⟨h, hh, _⟩ := bind_eq_ok.mp hparts
  obtain ⟨_, g', hsame, hg', hinsertion⟩ := insertion_of_parts hids hfront hk hh
  obtain rfl := Except.ok.inj (hg.symm.trans hsame)
  exact ⟨g', hg', hinsertion⟩

/-- An element of an identifier of its own may be taken out of a drawing. -/
theorem ofElements_removal {es fs : List (Element α)} {e : Element α}
    (hids : DisjointIds [e] (es ++ fs)) {g' : Graph α}
    (hg' : ofElements (es ++ e :: fs) = .ok g') :
    ∃ g k, ofElements (es ++ fs) = .ok g ∧ ofElements [e] = .ok k ∧ Insertion k g g' := by
  have hparts := hg'
  rw [ofElements_insert hids] at hparts
  obtain ⟨front, hfront, hparts⟩ := bind_eq_ok.mp hparts
  obtain ⟨k, hk, hparts⟩ := bind_eq_ok.mp hparts
  obtain ⟨h, hh, _⟩ := bind_eq_ok.mp hparts
  obtain ⟨g, _, hg, hsame, hinsertion⟩ := insertion_of_parts hids hfront hk hh
  obtain rfl := Except.ok.inj (hg'.symm.trans hsame)
  exact ⟨g, k, hg, hk, hinsertion⟩

end Graph

/-- **Taking a drawing apart distributes over putting drawings one after the other.** One element has
its own graph. The graph of two drawings is had exactly where those of both are, and is that of the
first with the vertices of the second whose names are not taken and with all of its edges and
circles. Where no identifier is shared it is the two side by side; so an element of its own
identifier comes into a drawing or goes out of it with its own parts only. -/
theorem graphs_of_concatenation [Scalar α] (es fs : List (Element α)) :
    (∀ e : Element α, Graph.ofElements [e] = e.graph) ∧
    (Graph.ofElements (es ++ fs) = do
      let g ← Graph.ofElements es
      let h ← Graph.ofElements fs
      return g ++ g.addition h) ∧
    (DisjointIds es fs → Graph.ofElements (es ++ fs) = do
      let g ← Graph.ofElements es
      let h ← Graph.ofElements fs
      return g ++ h) ∧
    ∀ e, DisjointIds [e] (es ++ fs) →
      (∀ g k, Graph.ofElements (es ++ fs) = .ok g → Graph.ofElements [e] = .ok k →
        ∃ g', Graph.ofElements (es ++ e :: fs) = .ok g' ∧ Graph.Insertion k g g') ∧
      ∀ g', Graph.ofElements (es ++ e :: fs) = .ok g' →
        ∃ g k, Graph.ofElements (es ++ fs) = .ok g ∧ Graph.ofElements [e] = .ok k ∧
          Graph.Insertion k g g' := by
  refine ⟨Graph.ofElements_singleton, Graph.ofElements_append es fs,
    Graph.ofElements_append_of_disjointIds, ?_⟩
  intro e hids
  constructor
  · intro g k hg hk
    exact Graph.ofElements_insertion hids hg hk
  · intro g' hg'
    exact Graph.ofElements_removal hids hg'

/-- A line, and a circle around its start. -/
def lineAndRing : List (Element Float) :=
  [⟨.text "a", .line ⟨0.0, 0.0⟩ ⟨4.0, 0.0⟩⟩, ⟨.text "b", .circle ⟨0.0, 0.0⟩ 2.0⟩]

/-- Another line of the same identifier, and a curve. -/
def lineAndCurve : List (Element Float) :=
  [⟨.text "a", .line ⟨7.0, 7.0⟩ ⟨9.0, 7.0⟩⟩, ⟨.text "c", .spline [⟨1.0, 1.0⟩, ⟨2.0, 3.0⟩]⟩]

/-- An arc whose identifier looks like the name of a point of the lines. -/
def arcBetween : Element Float := ⟨.text "a_start", .arc ⟨0.0, 0.0⟩ 1.0 0.0 1.0⟩

/-- Of the four vertices after the first line only those of the curve are new. The arc has an
identifier of its own, so that its parts stand beside the others, at the end and in between. -/
theorem graphs_of_concatenation_sharedLine : ∃ g h k g', Graph.ofElements lineAndRing = .ok g ∧
    Graph.ofElements lineAndCurve = .ok h ∧ Graph.ofElements [arcBetween] = .ok k ∧
    h.vertices.length = 4 ∧ (g.addition h).vertices.length = 2 ∧
    Graph.ofElements (lineAndRing ++ lineAndCurve) = .ok (g ++ g.addition h) ∧
    Graph.ofElements (lineAndRing ++ [arcBetween]) = .ok (g ++ k) ∧
    Graph.ofElements (lineAndRing ++ arcBetween :: lineAndCurve) = .ok g' ∧
    Graph.Insertion k (g ++ g.addition h) g' := by
  have hcounts : (match Graph.ofElements lineAndRing, Graph.ofElements lineAndCurve with
      | .ok g, .ok h => decide (h.vertices.length = 4 ∧ (g.addition h).vertices.length = 2)
      | _, _ => false) = true := by decide +kernel
  obtain ⟨k, hk⟩ : ∃ k, Graph.ofElements [arcBetween] = .ok k :=
    Graph.ofElements_isOk_iff.mpr (by decide +kernel)
  have hbeside : DisjointIds lineAndRing [arcBetween] := by
    unfold DisjointIds
    decide
  have hbetween : DisjointIds [arcBetween] (lineAndRing ++ lineAndCurve) := by
    unfold DisjointIds
    decide
  obtain ⟨-, hshared, -, hput⟩ := graphs_of_concatenation lineAndRing lineAndCurve
  obtain ⟨-, -, hjoined, -⟩ := graphs_of_concatenation lineAndRing [arcBetween]
  split at hcounts
  case h_2 => cases hcounts
  case h_1 g h hg hh =>
    obtain ⟨hfour, htwo⟩ := of_decide_eq_true hcounts
    have hwhole : Graph.ofElements (lineAndRing ++ lineAndCurve) = .ok (g ++ g.addition h) := by
      rw [hshared, hg, hh]
      rfl
    have hend : Graph.ofElements (lineAndRing ++ [arcBetween]) = .ok (g ++ k) := by
      rw [hjoined hbeside, hg, hk]
      rfl
    obtain ⟨g', hg', hinsertion⟩ := (hput arcBetween hbetween).1 _ k hwhole hk
    exact ⟨g, h, k, g', hg, hh, hk, hfour, htwo, hwhole, hend, hg', hinsertion⟩

end Drafting
