import Drafting.Constraint.Make
import Drafting.Proofs.ErrorBoundary
import Drafting.Proofs.FinalState
import Drafting.Proofs.Numbers

/-!
What a solve may change. Of a point it may change where it is, and of a circle how large it is;
everything else of them stays, in number and order too. Whatever the numbers were that a method came
up with, a coordinate in its result is finite or the one that was given, and a radius is not below
the least one and comes from the solve, the input or the options.

Of a drawing it may change the fields of its elements, but it brings no field into it that is not
finite. Here it does not matter what solved the problem, or whether the result fits the drawing.
-/

namespace Drafting

open Scalar

/-! ## Problems -/

/-- What a solve may do to a point: move it, to finite coordinates. -/
structure Vertex.Moved (v w : Vertex Float) : Prop where
  id : w.id = v.id
  element : w.element = v.element
  role : w.role = v.role
  index : w.index = v.index
  x : Scalar.isFinite w.x = true ∨ w.x = v.x
  y : Scalar.isFinite w.y = true ∨ w.y = v.y

/-- What a solve may do to a circle: change its radius, but not to one below the least one, and not
to one that is not finite if the given radius and the least one are. -/
structure Ring.Resized (minRadius : Float) (c d : Ring Float) : Prop where
  id : d.id = c.id
  center : d.center = c.center
  floor : lt d.radius minRadius = false
  finite : Scalar.isFinite c.radius = true → Scalar.isFinite minRadius = true →
    Scalar.isFinite d.radius = true

theorem finiteOr_cases (a b : Float) :
    Scalar.isFinite (finiteOr a b) = true ∨ finiteOr a b = b := by
  by_cases ha : Scalar.isFinite a = true
  · left
    rw [finiteOr, if_pos ha]
    exact ha
  · right
    rw [finiteOr, if_neg ha]

theorem not_larger_lt (a m : Float) : lt (larger a m) m = false := by
  unfold larger
  by_cases hlt : lt a m = true
  · rw [if_pos hlt]
    exact not_lt_self m
  · rw [if_neg hlt]
    simpa using hlt

theorem larger_isFinite {a m : Float} (ha : Scalar.isFinite a = true)
    (hm : Scalar.isFinite m = true) : Scalar.isFinite (larger a m) = true := by
  unfold larger
  split
  · exact hm
  · exact ha

/-- Items that are related place by place stand in related lists. -/
theorem forall₂_ofFn {β γ : Type} {n : Nat} {R : β → γ → Prop} {xs : Vector β n} {f : Fin n → γ}
    (h : ∀ i, R (xs.get i) (f i)) : List.Forall₂ R xs.toList (Vector.ofFn f).toList := by
  rw [List.forall₂_iff_get]
  refine ⟨by simp, fun i hi _ => ?_⟩
  have hin : i < n := by simpa using hi
  have hitem := h ⟨i, hin⟩
  simpa [Vector.get] using hitem

namespace System

variable {n k : Nat} (s : System Float n k) (x : State Float n k)

theorem solvedVertex_moved (i : Fin n) : (s.vertices.get i).Moved (s.solvedVertex x i) := by
  unfold solvedVertex
  dsimp only
  split
  · exact ⟨rfl, rfl, rfl, rfl, .inr rfl, .inr rfl⟩
  · exact ⟨rfl, rfl, rfl, rfl, finiteOr_cases _ _, finiteOr_cases _ _⟩

theorem solvedRing_resized (j : Fin k) :
    (s.rings.get j).Resized s.options.minRadius (s.solvedRing x j) where
  id := rfl
  center := rfl
  floor := not_larger_lt _ _
  finite hradius hmin := larger_isFinite (finiteOr_isFinite hradius) hmin

end System

/-- **What a solve may change of a problem.** Whatever method returns a result, with any linear solver
or optimiser, the points are the given ones in their order, moved at most, and the circles are the
given ones in their order, resized at most; every one of them counts among the variables. -/
theorem result_frame (m : Method) (p : Problem) (r : Solution) (h : m.backend.solve p = .ok r) :
    List.Forall₂ Vertex.Moved p.vertices r.vertices ∧
      List.Forall₂ (Ring.Resized p.options.minRadius) p.rings r.rings ∧
      r.variableCount = 2 * p.vertices.length + p.rings.length := by
  obtain ⟨s, hs, hr⟩ := Method.solve_eq_ok h
  obtain ⟨hvertices, hrings, hoptions, _⟩ := System.compile_eq_ok hs
  refine ⟨?_, ?_, hr.variableCount⟩
  · have hmoved := forall₂_ofFn (s.solvedVertex_moved (m.final s))
    rw [hvertices] at hmoved
    rw [hr.vertices]
    exact hmoved
  · have hresized := forall₂_ofFn (s.solvedRing_resized (m.final s))
    rw [hrings, hoptions] at hresized
    rw [hr.rings]
    exact hresized

/-- A circle at no place, to be made smaller than is allowed. -/
def cramped : Problem where
  vertices :=
    [{ id := .text "c_center", x := 0.0 / 0.0, y := 1.0, element := .text "c", role := .center }]
  edges := []
  rings := [⟨.text "c_circle", .text "c_center", 0.05⟩]
  constraints := [.radius (.text "r") (.text "c_circle") (.float 0.01)]
  options := .standard

theorem result_frame_cramped :
    ∃ r w d, Backend.gaussNewton.solve cramped = .ok r ∧ r.vertices = [w] ∧ r.rings = [d] ∧
      w.role = .center ∧ lt d.radius 0.1 = false ∧ Scalar.isFinite d.radius = true ∧
      r.variableCount = 3 := by
  have hok : (Backend.gaussNewton.solve cramped).isOk = true := by decide +kernel
  obtain ⟨r, hr⟩ := exists_eq_ok_of_isOk hok
  obtain ⟨hvertices, hrings, hcount⟩ := result_frame (.gaussNewton floatSolver) cramped r hr
  obtain ⟨w, ws, hw, hws, hvertices⟩ := List.forall₂_cons_left_iff.mp hvertices
  obtain ⟨d, ds, hd, hds, hrings⟩ := List.forall₂_cons_left_iff.mp hrings
  obtain rfl := List.forall₂_nil_left_iff.mp hws
  obtain rfl := List.forall₂_nil_left_iff.mp hds
  exact ⟨r, w, d, hr, hvertices, hrings, hw.role, hd.floor,
    hd.finite (by decide +kernel) (by decide +kernel), hcount⟩

/-! ## Sketches -/

/-- All fields of all elements of a drawing are finite. -/
def FiniteFields (es : List (Element Float)) : Prop := ∀ e ∈ es, e.shape.isFinite = true

/-- Elements that are written back are the old ones in their order, with the same identifiers and
kinds, and finite if these were. -/
theorem Solved.elements_finite {solved : Solved Float} {es es' : List (Element Float)}
    (hes : FiniteFields es) (h : solved.elements es = .ok es') :
    List.Forall₂ (fun e e' => e'.id = e.id ∧ e'.shape.kind? = e.shape.kind? ∧
      e'.shape.isFinite = true) es es' := by
  refine ((List.forall₂_and_left _ _).mpr ⟨hes, Solved.elements_eq_ok h⟩).imp ?_
  rintro e _ ⟨hfinite, new, hnew, rfl⟩
  exact ⟨rfl, Shape.kind?_eq_of_outline hnew.outline, hnew.isFinite hfinite⟩

namespace Sketch

theorem cycleWith_finite {s : Sketch} (hs : FiniteFields s.elements)
    {find : Graph Float → List Constraint → Except Error Solution} {r : Solution}
    {es : List (Element Float)} (h : s.cycleWith find = .ok (r, es)) : FiniteFields es := by
  obtain ⟨_, _, _, _, _, ⟨_, rfl⟩ | ⟨_, hwritten⟩⟩ := cycleWith_eq_ok h
  · exact hs
  · intro e he
    obtain ⟨_, _, _, _, hfinite⟩ :=
      exists_of_forall₂_right (Solved.elements_finite hs hwritten) he
    exact hfinite

theorem solve_finite {s : Sketch} (hs : FiniteFields s.elements) (flags : Flags)
    (options : Option (Options Float)) : FiniteFields (s.solve flags options).1.elements := by
  cases h : s.cycle flags options with
  | error cause =>
    rw [(solve_abandoned h).2.elements]
    exact hs
  | ok result =>
    rw [solve_eq_of_ok h]
    rw [cycle_eq_cycleWith] at h
    exact cycleWith_finite hs h

end Sketch

/-- **Finite in, finite out.** Elements with finite fields that are written back have finite fields,
and the identifiers and kinds that they had, whatever was solved. So no solve of a sketch brings a
field into it that is not finite, whatever finds the solution. -/
theorem finite_in_finite_out :
    (∀ (solved : Solved Float) (es es' : List (Element Float)), FiniteFields es →
      solved.elements es = .ok es' →
      List.Forall₂ (fun e e' => e'.id = e.id ∧ e'.shape.kind? = e.shape.kind? ∧
        e'.shape.isFinite = true) es es') ∧
    ∀ s : Sketch, FiniteFields s.elements →
      (∀ find r es, s.cycleWith find = .ok (r, es) → FiniteFields es) ∧
      ∀ flags options, FiniteFields (s.solve flags options).1.elements := by
  constructor
  · intro solved es es' hes h
    exact Solved.elements_finite hes h
  · intro s hs
    exact ⟨fun find r es h => Sketch.cycleWith_finite hs h, Sketch.solve_finite hs⟩

/-- A line and a box at the edge of the numbers: the end of the line and the width of the box are
infinite. The line is to be short. -/
def outermost : Sketch where
  id := .text "s"
  elements :=
    [⟨.text "h", .hline ⟨1.0e308, 0.0⟩ 1.0e308⟩,
      ⟨.text "b", .rectangle ⟨-1.0e308, 0.0⟩ ⟨1.0e308, 1.0⟩⟩]
  constraints := [.length (.text "d") (.text "h_line") (.float 5.0)]

/-- What was solved for them: undefined and infinite numbers, and a corner too far. -/
def unusable : Solved Float where
  vertices :=
    [{ id := .text "h_start", x := 0.0 / 0.0, y := 2.0 },
      { id := .text "h_end", x := 1.0 / 0.0, y := 0.0 },
      { id := .text "b_corner0", x := -1.0e308, y := 0.0 },
      { id := .text "b_corner2", x := 1.0 / 0.0, y := 1.0 }]
  rings := []

/-- Something that takes these numbers for the solution of every problem. -/
def mistake (_ : Graph Float) (_ : List Constraint) : Except Error Solution :=
  .ok
    { vertices := unusable.vertices
      rings := unusable.rings
      success := true
      status := .converged
      message := "" }

theorem finite_in_finite_out_outermost :
    FiniteFields outermost.elements ∧
      (∃ es, unusable.elements outermost.elements = .ok es ∧ FiniteFields es) ∧
      (∃ r es, outermost.cycleWith mistake = .ok (r, es) ∧ FiniteFields es) ∧
      FiniteFields (outermost.solve .standard none).1.elements := by
  have hfinite : FiniteFields outermost.elements := by
    unfold FiniteFields
    decide +kernel
  obtain ⟨hcycle, hsolve⟩ := finite_in_finite_out.2 outermost hfinite
  refine ⟨hfinite, ?_, ?_, hsolve .standard none⟩
  · have hok : (unusable.elements outermost.elements).isOk = true := by decide +kernel
    obtain ⟨es, hes⟩ := exists_eq_ok_of_isOk hok
    have hwritten := finite_in_finite_out.1 unusable outermost.elements es hfinite hes
    refine ⟨es, hes, fun e he => ?_⟩
    obtain ⟨_, _, _, _, hstays⟩ := exists_of_forall₂_right hwritten he
    exact hstays
  · have hok : (outermost.cycleWith mistake).isOk = true := by decide +kernel
    obtain ⟨⟨r, es⟩, hes⟩ := exists_eq_ok_of_isOk hok
    exact ⟨r, es, hes, hcycle mistake r es hes⟩

end Drafting
