import Drafting.Graph.Coincidence
import Drafting.Graph.Implicit
import Drafting.Proofs.Failure
import Drafting.Settings.Tolerances
import Drafting.Suggestion
import Drafting.System.Equation

/-!
The table of tolerances and the numbers in use. Suggestions, the look for coincident points, the
equations and the standard parameters of a solve have their numbers as constants of their own; the
standard table lists all of these under their names. It has no issues, and keeps having none when
a value is replaced that is not checked.
-/

namespace Drafting.Tolerances

open Scalar

/-! ## Looking up and replacing -/

theorem lookup_cons (k key : String) (v : Value) (entries : List (String × Value)) :
    ((k, v) :: entries).lookup key = if key = k then some v else entries.lookup key := by
  rw [List.lookup_cons]
  by_cases hkey : key = k
  · rw [beq_iff_eq.mpr hkey, if_pos hkey]
  · rw [beq_eq_false_iff_ne.mpr hkey, if_neg hkey]

/-- Entries with the value under one name replaced. -/
def replace (name : String) (value : Value) (entries : List (String × Value)) :
    List (String × Value) :=
  entries.map fun e => if e.1 == name then (name, value) else e

theorem replace_cons (name k : String) (value v : Value) (entries : List (String × Value)) :
    replace name value ((k, v) :: entries) =
      (if k = name then (name, value) else (k, v)) :: replace name value entries := by
  by_cases hk : k = name <;> simp [replace, hk]

theorem lookup_replace_self {entries : List (String × Value)} {name : String}
    (hname : ∃ e ∈ entries, e.1 = name) (value : Value) :
    (replace name value entries).lookup name = some value := by
  induction entries with
  | nil => simp at hname
  | cons e es ih =>
    obtain ⟨k, v⟩ := e
    rw [replace_cons]
    by_cases hk : k = name
    · rw [if_pos hk, lookup_cons, if_pos rfl]
    · have hlater : ∃ e ∈ es, e.1 = name := by simpa [hk] using hname
      rw [if_neg hk, lookup_cons, if_neg (Ne.symm hk), ih hlater]

theorem lookup_replace_of_ne {name key : String} (hkey : key ≠ name) (value : Value)
    (entries : List (String × Value)) :
    (replace name value entries).lookup key = entries.lookup key := by
  induction entries with
  | nil => rfl
  | cons e es ih =>
    obtain ⟨k, v⟩ := e
    rw [replace_cons, lookup_cons]
    by_cases hk : k = name
    · rw [if_pos hk, lookup_cons, if_neg hkey, if_neg (hk ▸ hkey), ih]
    · rw [if_neg hk, lookup_cons, ih]

theorem set_entries (t : Tolerances) (name : String) (value : Value) :
    (t.set name value).entries =
      if ∃ e ∈ t.entries, e.1 = name then replace name value t.entries
      else t.entries ++ [(name, value)] := by
  have hany : t.entries.any (·.1 == name) = true ↔ ∃ e ∈ t.entries, e.1 = name := by
    simp only [List.any_eq_true, beq_iff_eq]
  unfold set
  by_cases hname : ∃ e ∈ t.entries, e.1 = name
  · rw [if_pos hname, if_pos (hany.mpr hname)]
    rfl
  · rw [if_neg hname, if_neg fun h => hname (hany.mp h)]

/-- Replacing a value leaves all others. -/
theorem get_set (t : Tolerances) (name key : String) (value : Value) :
    (t.set name value).get key = if key = name then .ok value else t.get key := by
  have hlookup : (t.set name value).entries.lookup key =
      if key = name then some value else t.entries.lookup key := by
    rw [set_entries]
    by_cases hkey : key = name
    · subst hkey
      rw [if_pos rfl]
      split
      · rename_i hname
        exact lookup_replace_self hname value
      · rename_i hname
        have hnone : t.entries.lookup key = none := by
          rw [List.lookup_eq_none_iff]
          intro e he
          exact bne_iff_ne.mpr fun heq => hname ⟨e, he, heq.symm⟩
        rw [List.lookup_append, hnone, lookup_cons, if_pos rfl]
        rfl
    · rw [if_neg hkey]
      split
      · exact lookup_replace_of_ne hkey value t.entries
      · rw [List.lookup_append, lookup_cons, if_neg hkey]
        simp
  unfold get
  rw [hlookup]
  by_cases hkey : key = name
  · rw [if_pos hkey, if_pos hkey]
  · rw [if_neg hkey, if_neg hkey]

/-! ## Issues -/

/-- The names of the tolerances that are checked. -/
def checked : List String :=
  ["SKETCH_AUTO_COINCIDENCE", "SKETCH_AUTO_ANGLE", "SOLVER_MAX_ITERATIONS", "SOLVER_FD_STEP",
    "SOLVER_MIN_RADIUS"]

theorem check_congr {t t' : Tolerances} {name : String} (h : t'.get name = t.get name)
    (complaint : String) (bad : Float → Bool) :
    t'.check name complaint bad = t.check name complaint bad := by
  unfold check
  rw [h]

/-- Only the values that are checked matter for the issues of a table. -/
theorem issues_congr {t t' : Tolerances} (h : ∀ name ∈ checked, t'.get name = t.get name) :
    t'.issues = t.issues := by
  unfold issues
  rw [check_congr (h _ (by simp [checked])), check_congr (h _ (by simp [checked])),
    check_congr (h _ (by simp [checked])), check_congr (h _ (by simp [checked])),
    check_congr (h _ (by simp [checked]))]

/-- A complaint names a tolerance of the table and shows its value. -/
theorem check_names {t : Tolerances} {name complaint : String} {bad : Float → Bool}
    {complaints : List String} (h : t.check name complaint bad = .ok complaints) :
    ∀ c ∈ complaints, ∃ v, t.get name = .ok v ∧ c = name ++ complaint ++ v.plain := by
  obtain ⟨v, hv, h⟩ := bind_eq_ok.mp h
  obtain ⟨x, _, h⟩ := bind_eq_ok.mp h
  cases h
  intro c hc
  split at hc
  · obtain rfl := List.mem_singleton.mp hc
    exact ⟨v, hv, rfl⟩
  · cases hc

/-- Every issue of a table names one of the tolerances that are checked, and shows its value. -/
theorem issues_name_checked {t : Tolerances} {complaints : List String}
    (h : t.issues = .ok complaints) : ∀ c ∈ complaints, ∃ name ∈ checked, ∃ v complaint,
      t.get name = .ok v ∧ c = name ++ complaint ++ v.plain := by
  obtain ⟨coincidence, hcoincidence, h⟩ := bind_eq_ok.mp h
  obtain ⟨angle, hangle, h⟩ := bind_eq_ok.mp h
  obtain ⟨iterations, hiterations, h⟩ := bind_eq_ok.mp h
  obtain ⟨step, hstep, h⟩ := bind_eq_ok.mp h
  obtain ⟨radius, hradius, h⟩ := bind_eq_ok.mp h
  cases h
  intro c hc
  have hone : ∀ {name complaint bad found}, name ∈ checked →
      t.check name complaint bad = .ok found → c ∈ found →
      ∃ name ∈ checked, ∃ v complaint, t.get name = .ok v ∧ c = name ++ complaint ++ v.plain := by
    intro name complaint bad found hname hcheck hfound
    obtain ⟨v, hv, hc⟩ := check_names hcheck c hfound
    exact ⟨name, hname, v, complaint, hv, hc⟩
  simp only [List.mem_append] at hc
  rcases hc with (((hc | hc) | hc) | hc) | hc
  · exact hone (by simp [checked]) hcoincidence hc
  · exact hone (by simp [checked]) hangle hc
  · exact hone (by simp [checked]) hiterations hc
  · exact hone (by simp [checked]) hstep hc
  · exact hone (by simp [checked]) hradius hc

/-! ## The standard table -/

/-- The numbers in use, under the names that the table has for them. -/
def inUse : List (String × Value) := [
  ("SKETCH_AUTO_COINCIDENCE", .float Suggestion.coincidenceTolerance),
  ("SKETCH_AUTO_ANGLE", .float Suggestion.axisAngle),
  ("SKETCH_AUTO_MIN_LENGTH", .float Suggestion.leastLength),
  ("SKETCH_IMPLICIT_AXIS", .float Implicit.axisTolerance),
  ("SOLVER_MAX_ITERATIONS", .int (Options.standard : Options Float).maxIterations),
  ("SOLVER_CONVERGENCE", .float Options.standard.tolerance),
  ("SOLVER_DAMPING", .float Options.standard.damping),
  ("SOLVER_ANGLE_STIFFNESS", .float Options.standard.angleStiffness),
  ("SOLVER_FD_STEP", .float Options.standard.differenceStep),
  ("SOLVER_MIN_RADIUS", .float Options.standard.minRadius),
  ("SOLVER_CONCENTRIC_RADIUS_DIFF", .float concentricDifference),
  ("SOLVER_DEGREES_PER_RADIAN", .float degreesPerRadian),
  ("EPSILON_LENGTH_SQ", .float distanceGuard),
  ("EPSILON_MAGNITUDE", .float angleGuard),
  ("EPSILON_DIRECTION", .float directionGuard),
  ("EPSILON_TANGENT_SQ", .float tangentGuard),
  ("COMPARE_POINT", .float Graph.pointTolerance)]

/-- The standard table has the numbers that are in use. -/
theorem standard_entries : standard.entries = inUse := by
  have hsuggestion : Suggestion.coincidenceTolerance = (5.0 : Float) ∧
      Suggestion.axisAngle = (Scalar.pi / 36.0 : Float) ∧
      Suggestion.leastLength = (10.0 : Float) := by decide +kernel
  have hgraph : Implicit.axisTolerance = (1e-6 : Float) ∧ Graph.pointTolerance = (1e-6 : Float) := by
    decide +kernel
  have hoptions : (Options.standard : Options Float).tolerance = 1e-4 ∧
      (Options.standard : Options Float).damping = 0.01 ∧
      (Options.standard : Options Float).angleStiffness = 100.0 ∧
      (Options.standard : Options Float).differenceStep = 1e-4 ∧
      (Options.standard : Options Float).minRadius = 0.1 := by decide +kernel
  have hequation : concentricDifference = (1e-3 : Float) ∧ degreesPerRadian = (57.3 : Float) ∧
      distanceGuard = (1e-9 : Float) ∧ angleGuard = (1e-9 : Float) ∧
      directionGuard = (1e-7 : Float) ∧ tangentGuard = (1e-7 : Float) := by decide +kernel
  simp only [inUse, hsuggestion, hgraph, hoptions, hequation]
  rfl

/-- The standard table has no issues. -/
theorem standard_issues : standard.issues = .ok [] := by
  have hempty : (match standard.issues with
      | .ok complaints => complaints.isEmpty
      | .error _ => false) = true := by decide +kernel
  split at hempty
  · rename_i complaints h
    rw [h, List.isEmpty_iff.mp hempty]
  · cases hempty

/-- Replacing a value that is not checked causes no issue. -/
theorem standard_set_issues {name : String} (hname : name ∉ checked) (value : Value) :
    (standard.set name value).issues = .ok [] := by
  rw [← standard_issues]
  refine issues_congr fun key hkey => ?_
  rw [get_set, if_neg fun heq : key = name => hname (heq ▸ hkey)]

end Drafting.Tolerances
