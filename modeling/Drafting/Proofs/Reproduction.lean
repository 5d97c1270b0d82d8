import Drafting.Proofs.Integrity
import Drafting.Proofs.RoundTrip

/-!
Solved parts are found again in the drawing that they were written to. How an element is taken apart
and how it is written back is said kind by kind in two places, and only the names join them. Parts
that answer the graph of a drawing have all the names that its elements ask for, so that they can be
written back. Where every element stores its points, the graph of the new drawing has the names of
the old one in their order, and at each name what was solved for it.
-/

namespace Drafting

/-! ## Answers can be written back -/

namespace Solved

variable {s : Solved Float} {e : Element Float}

theorem Serves.ends_isOk (hserves : s.Serves e) (hstart : (.start, none) ∈ e.shape.slots)
    (hstop : (.stop, none) ∈ e.shape.slots) (a b : Point Float) :
    ∃ p q, s.point e.id .start a = .ok p ∧ s.point e.id .stop b = .ok q := by
  obtain ⟨p, hp⟩ := hserves.point_isOk (List.mem_map.mpr ⟨_, hstart, rfl⟩) a
  obtain ⟨q, hq⟩ := hserves.point_isOk (List.mem_map.mpr ⟨_, hstop, rfl⟩) b
  exact ⟨p, q, hp, hq⟩

/-- An element whose parts were all solved can be written back. -/
theorem Serves.element_isOk (hserves : s.Serves e) (hs : s.Legible)
    (hplaces : ∃ places, e.shape.places = .ok places) : ∃ e', s.element e = .ok e' := by
  have hshape : ∃ new, s.shape? e = .ok new := by
    obtain ⟨id, shape⟩ := e
    cases shape with
    | line start stop =>
      obtain ⟨p, q, hp, hq⟩ :=
        hserves.ends_isOk (by simp [Shape.slots]) (by simp [Shape.slots]) start stop
      exact ⟨_, bind_eq_ok.mpr ⟨p, hp, bind_eq_ok.mpr ⟨q, hq, rfl⟩⟩⟩
    | hline start length =>
      obtain ⟨p, q, hp, hq⟩ := hserves.ends_isOk (by simp [Shape.slots]) (by simp [Shape.slots])
        start (hlineEnd start length)
      exact ⟨_, bind_eq_ok.mpr ⟨p, hp, bind_eq_ok.mpr ⟨q, hq, rfl⟩⟩⟩
    | vline start length =>
      obtain ⟨p, q, hp, hq⟩ := hserves.ends_isOk (by simp [Shape.slots]) (by simp [Shape.slots])
        start (vlineEnd start length)
      exact ⟨_, bind_eq_ok.mpr ⟨p, hp, bind_eq_ok.mpr ⟨q, hq, rfl⟩⟩⟩
    | circle center radius =>
      obtain ⟨r, hr⟩ := hserves.ring_isOk (List.mem_singleton.mpr rfl)
      obtain ⟨v, hv, _⟩ := hs.center?_isOk hr
      exact ⟨_, bind_eq_ok.mpr ⟨r, hr, bind_eq_ok.mpr ⟨_, hv, rfl⟩⟩⟩
    | arc center radius a b =>
      -- the ends of an arc are computed again, as they were when it was taken apart
      obtain ⟨_, hplaces⟩ := hplaces
      obtain ⟨start, hstart, hplaces⟩ := bind_eq_ok.mp hplaces
      obtain ⟨stop, hstop, _⟩ := bind_eq_ok.mp hplaces
      obtain ⟨r, hr⟩ := hserves.ring_isOk (List.mem_singleton.mpr rfl)
      obtain ⟨p, q, hp, hq⟩ :=
        hserves.ends_isOk (by simp [Shape.slots]) (by simp [Shape.slots]) start stop
      obtain ⟨v, hv, _⟩ := hs.center?_isOk hr
      exact ⟨_, bind_eq_ok.mpr ⟨r, hr, bind_eq_ok.mpr ⟨start, hstart, bind_eq_ok.mpr ⟨p, hp,
        bind_eq_ok.mpr ⟨stop, hstop, bind_eq_ok.mpr ⟨q, hq, bind_eq_ok.mpr ⟨_, hv, rfl⟩⟩⟩⟩⟩⟩⟩
    | rectangle | spline | foreign => exact ⟨_, rfl⟩
  obtain ⟨new, hnew⟩ := hshape
  exact ⟨_, bind_eq_ok.mpr ⟨new, hnew, rfl⟩⟩

variable {g : Graph Float} {es : List (Element Float)}

theorem Answers.names_text (hs : s.Answers g) (hg : g.Covers es) :
    ∀ id ∈ s.names, ∃ name, id = .text name := by
  obtain ⟨hvertices, hrings⟩ := hg.named
  intro id hid
  rcases List.mem_append.mp hid with hid | hid
  · obtain ⟨v, hv, rfl⟩ := List.mem_map.mp (hs.vertexIds.subset hid)
    exact hvertices v hv
  · obtain ⟨r, hr, rfl⟩ := List.mem_map.mp (hs.ringNames.subset hid)
    exact hrings r hr

/-- What answers the graph of a drawing can be written back to it. -/
theorem Answers.elements_isOk (hs : s.Answers g) (hg : g.Covers es) (hids : DistinctIds es) :
    ∃ es', s.elements es = .ok es' := by
  have hkeys : ∃ keys, s.names.mapM Value.asKey = .ok keys := by
    apply mapM_isOk
    intro id hid
    obtain ⟨name, rfl⟩ := hs.names_text hg id hid
    exact ⟨_, Value.asKey_text name⟩
  have hwritten : ∃ es', es.mapM s.element = .ok es' := by
    apply mapM_isOk
    intro e he
    have hserves := hg.serves hs.vertexIds.symm.subset hs.ringNames.symm.subset e he
    exact hserves.element_isOk (hg.legible hids hs) (hg.places e he)
  obtain ⟨keys, hkeys⟩ := hkeys
  obtain ⟨es', hes'⟩ := hwritten
  exact ⟨es', bind_eq_ok.mpr ⟨keys, hkeys, hes'⟩⟩

end Solved

/-! ## What was written is found again -/

theorem Shape.places_isOk_of_stored {shape : Shape Float} (h : shape.computesPoints = false) :
    ∃ places, shape.places = .ok places := by
  cases shape with
  | line | circle | spline | foreign => exact ⟨_, rfl⟩
  | hline | vline | rectangle | arc => cases h

/-- Two lists that have each of some keys once, with the same item at it, differ in order only. -/
theorem perm_of_keys {β κ : Type} {f : β → κ} {as bs : List β}
    (hkeys : (as.map f).Perm (bs.map f)) (hnodup : (bs.map f).Nodup)
    (hsame : ∀ a ∈ as, ∀ b ∈ bs, f a = f b → a = b) : as.Perm bs := by
  have hnodup' : (as.map f).Nodup := hkeys.nodup_iff.mpr hnodup
  rw [List.perm_ext_iff_of_nodup (.of_map f hnodup') (.of_map f hnodup)]
  intro c
  constructor
  · intro hc
    obtain ⟨b, hb, hkey⟩ := List.mem_map.mp (hkeys.subset (List.mem_map_of_mem hc))
    rw [hsame c hc b hb hkey.symm]
    exact hb
  · intro hc
    obtain ⟨a, ha, hkey⟩ := List.mem_map.mp (hkeys.symm.subset (List.mem_map_of_mem hc))
    rw [← hsame a ha c hc hkey]
    exact ha

section Shown

variable {g : Graph Float} {es : List (Element Float)} (hg : g.Covers es) {s : Solved Float}
  (hs : s.Legible)
include hg hs

/-- A drawing that shows solved points has them, at their coordinates. -/
theorem Graph.Covers.vertices_perm (hshows : ∀ e ∈ es, e.Shows s.vertices)
    (hids : (g.vertices.map (·.id)).Perm (s.vertices.map (·.id))) :
    (g.vertices.map fun v => (v.id, v.x, v.y)).Perm
      (s.vertices.map fun v => (v.id, v.x, v.y)) := by
  refine perm_of_keys (f := Prod.fst) ?_ ?_ ?_
  · simpa [Function.comp_def] using hids
  · simpa [Function.comp_def] using hs.vertexIds
  · intro a ha b hb hid
    obtain ⟨v, hv, rfl⟩ := List.mem_map.mp ha
    obtain ⟨w, hw, rfl⟩ := List.mem_map.mp hb
    obtain ⟨hx, hy⟩ := hg.shows_vertex hshows hv hw hid
    rw [Prod.mk.injEq, Prod.mk.injEq]
    exact ⟨hid, hx, hy⟩

/-- A drawing that shows solved circles has them. -/
theorem Graph.Covers.rings_perm (hshows : ∀ e ∈ es, e.ShowsRings s.rings)
    (hids : (g.rings.map fun r => (r.id, r.center)).Perm
      (s.rings.map fun r => (r.id, r.center))) :
    g.rings.Perm s.rings := by
  refine perm_of_keys hids ?_ ?_
  · refine List.Nodup.of_map Prod.fst ?_
    simpa [Function.comp_def] using hs.ringIds
  · rintro ⟨id, center, radius⟩ hr ⟨id', center', radius'⟩ hr' hkey
    obtain ⟨rfl, rfl⟩ := Prod.mk.inj hkey
    obtain rfl : radius = radius' := hg.shows_ring hshows hr hr' rfl (hs.radii _ hr')
    rfl

end Shown

/-- **What is written back is found again.** A drawing of lines, circles and splines with different
identifiers can be taken apart. Whatever answers its graph can be written back, and the new drawing
has parts of the same names in the same order, with its points where they were solved to be and
its circles as they were solved. -/
theorem write_back_reproduces (es : List (Element Float)) (hids : DistinctIds es)
    (hstored : ∀ e ∈ es, e.shape.computesPoints = false) :
    ∃ g, Graph.ofElements es = .ok g ∧ ∀ s : Solved Float, s.Answers g →
      ∃ es' g', s.elements es = .ok es' ∧ Graph.ofElements es' = .ok g' ∧ g.SameNames g' ∧
        (g'.vertices.map fun v => (v.id, v.x, v.y)).Perm
          (s.vertices.map fun v => (v.id, v.x, v.y)) ∧
        g'.rings.Perm s.rings := by
  obtain ⟨g, hgraph⟩ :=
    Graph.ofElements_isOk fun e he => Shape.places_isOk_of_stored (hstored e he)
  have hg := Graph.ofElements_covers hgraph
  refine ⟨g, hgraph, fun s hs => ?_⟩
  have hlegible := hg.legible hids hs
  obtain ⟨es', hes'⟩ := hs.elements_isOk hg hids
  have halike := Solved.elements_alike hes'
  have hstored' : ∀ e ∈ es', e.shape.computesPoints = false := by
    intro e' he'
    obtain ⟨e, he, hsame⟩ := exists_of_forall₂_right halike he'
    rw [Shape.computesPoints_eq_of_outline hsame.outline]
    exact hstored e he
  obtain ⟨g', hgraph'⟩ :=
    Graph.ofElements_isOk fun e he => Shape.places_isOk_of_stored (hstored' e he)
  have hg' := Graph.ofElements_covers hgraph'
  have hnames := Graph.ofElements_sameNames halike hgraph hgraph'
  refine ⟨es', g', hes', hgraph', hnames, ?_, ?_⟩
  · apply hg'.vertices_perm hlegible (hlegible.elements_show hes' hstored')
    rw [hnames.vertices]
    exact hs.vertexIds.symm
  · apply hg'.rings_perm hlegible (hlegible.elements_showRings hes')
    rw [hnames.rings]
    exact hs.ringIds.symm

/-- A line, a circle and a spline. -/
def freehand : List (Element Float) :=
  [⟨.text "a", .line ⟨0.0, 0.0⟩ ⟨1.0, 0.0⟩⟩, ⟨.text "c", .circle ⟨2.0, 2.0⟩ 1.0⟩,
    ⟨.text "s", .spline [⟨4.0, 0.0⟩, ⟨5.0, 1.0⟩]⟩]

/-- Other places for their points and another size for the circle, from the last to the first. -/
def redrawn : Solved Float where
  vertices :=
    [{ id := .text "s_control1", x := 0.1, y := 0.2 },
      { id := .text "s_control0", x := -0.0, y := 5.0e-324 },
      { id := .text "c_center", x := 1.0e308, y := -3.5 },
      { id := .text "a_end", x := 7.0, y := 8.0 },
      { id := .text "a_start", x := 6.0, y := 0.0 }]
  rings := [⟨.text "c_circle", .text "c_center", -2.5⟩]

theorem write_back_reproduces_freehand :
    ∃ g es' g', Graph.ofElements freehand = .ok g ∧ redrawn.Answers g ∧
      redrawn.elements freehand = .ok es' ∧ Graph.ofElements es' = .ok g' ∧
      g'.vertices.map (·.id) = [.text "a_start", .text "a_end", .text "c_center",
        .text "s_control0", .text "s_control1"] ∧
      (g'.vertices.map fun v => (v.id, v.x, v.y)).Perm
        (redrawn.vertices.map fun v => (v.id, v.x, v.y)) ∧
      g'.rings.Perm redrawn.rings := by
  have hids : DistinctIds freehand := ⟨by simp [freehand], by simp [freehand]⟩
  obtain ⟨g, hg, hall⟩ := write_back_reproduces freehand hids (by decide)
  have hnames : g.vertices.map (·.id) = [.text "a_start", .text "a_end", .text "c_center",
      .text "s_control0", .text "s_control1"] := by
    cases hg
    rfl
  have hanswers : redrawn.Answers g := by
    refine ⟨?_, ?_, by decide +kernel, by decide +kernel⟩
    · have hreverse : redrawn.vertices.map (·.id) = (g.vertices.map (·.id)).reverse := by
        rw [hnames]
        rfl
      rw [hreverse]
      exact List.reverse_perm _
    · cases hg
      exact .refl _
  obtain ⟨es', g', hes', hg', hsame, hvertices, hrings⟩ := hall redrawn hanswers
  exact ⟨g, es', g', hg, hanswers, hes', hg', hsame.vertices.trans hnames, hvertices, hrings⟩

end Drafting
