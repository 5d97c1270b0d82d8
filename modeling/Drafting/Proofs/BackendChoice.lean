import Mathlib.Data.List.DropRight
import Drafting.Proofs.Requirements

/-!
Which backend solves, and what the result tells about it. A backend is injected, or asked for by
the options, or by the flag; an unknown name falls back to the default. Here the choice is stated
case by case, on the name that is asked for and the names that are registered, for every value of
the three sources.

Whatever deviates from what was asked for stands in the detail, and the detail stands in the message
beside what the backend said. Only the blanks around its words are lost when a detail is appended.
-/

namespace Drafting

/-! ## Parts of texts -/

namespace Text

/-- A text occurs in another. -/
def Occurs (part s : String) : Prop := part.toList <:+: s.toList

/-- A text has no characters but blanks. -/
def Blank (s : String) : Prop := ∀ c ∈ s.toList, isBlank c = true

theorem Occurs.refl (s : String) : Occurs s s := List.infix_refl s.toList

theorem occurs_empty (s : String) : Occurs "" s := List.nil_infix

theorem Occurs.append_left {part s : String} (h : Occurs part s) (before : String) :
    Occurs part (before ++ s) := by
  rw [Occurs, String.toList_append]
  exact h.trans (List.suffix_append _ _).isInfix

theorem Occurs.append_right {part s : String} (h : Occurs part s) (after : String) :
    Occurs part (s ++ after) := by
  rw [Occurs, String.toList_append]
  exact h.trans (List.prefix_append _ _).isInfix

theorem occursIn_iff {part cs : List Char} : occursIn part cs = true ↔ part <:+: cs := by
  induction cs with
  | nil => rw [occursIn, List.isEmpty_iff, List.infix_nil]
  | cons c cs ih =>
    rw [occursIn, Bool.or_eq_true, List.isPrefixOf_iff_prefix, ih, List.infix_cons_iff]

theorem trim_eq (p : Char → Bool) (cs : List Char) :
    trim p cs = (cs.dropWhile p).rdropWhile p := rfl

/-- What is stripped off a text stands around the rest. -/
theorem strip_occurs (s : String) : Occurs (strip s) s := by
  rw [Occurs, strip, String.toList_ofList, trim_eq]
  exact (List.rdropWhile_prefix isBlank _).isInfix.trans (List.dropWhile_suffix isBlank).isInfix

theorem trim_eq_nil_iff {p : Char → Bool} {cs : List Char} :
    trim p cs = [] ↔ ∀ c ∈ cs, p c = true :=
  calc trim p cs = []
    _ ↔ (cs.dropWhile p).rdropWhile p = [] := by rw [trim_eq]
    _ ↔ (cs.dropWhile p).dropWhile p = [] := by
      rw [List.rdropWhile_eq_nil_iff, List.dropWhile_eq_nil_iff]
    _ ↔ ∀ c ∈ cs, p c = true := by rw [List.dropWhile_idempotent, List.dropWhile_eq_nil_iff]

theorem strip_eq_empty_iff {s : String} : strip s = "" ↔ Blank s := by
  rw [strip, String.ofList_eq_empty_iff, trim_eq_nil_iff]
  rfl

end Text

/-! ## What is asked for -/

/-- The text of the flag that names a backend: empty if its value does not count as true, and the
default's name if it is not set. -/
def Flags.backendText (flags : Flags) : String :=
  ((flags.get? (.text "solver_backend")).getD (.text "gauss_newton")).mention

/-- The options name a backend: by any text but the empty one. -/
def Options.Names (options : Options Float) (name : String) : Prop :=
  options.backend = some name ∧ name ≠ ""

/-- Nobody names a backend: the options do not, and the flag is blank. -/
def Unnamed (flags : Flags) (options : Options Float) : Prop :=
  (∀ name, ¬ options.Names name) ∧ Text.Blank flags.backendText

/-- The name that is asked for: by the options, else by the flag, else that of the default. -/
inductive Asks (flags : Flags) (options : Options Float) : String → Prop where
  | options {name : String} (h : options.Names name) : Asks flags options (Text.strip name)
  | flag (hoptions : ∀ name, ¬ options.Names name) (hflag : ¬ Text.Blank flags.backendText) :
      Asks flags options (Text.strip flags.backendText)
  | default (h : Unnamed flags options) : Asks flags options "gauss_newton"

/-- The names of the registered backends. -/
def Backend.names : List String := registered.map (·.name)

/-- What is told about a choice: the name of the backend that is used, the name that was asked for,
and a detail. -/
structure TellsChoice (given : Option Backend) (flags : Flags) (options : Options Float)
    (backend requested detail : String) : Prop where
  /-- An injected backend is used, and counts as asked for. -/
  injected : ∀ b, given = some b →
    backend = b.name ∧ requested = b.name ∧ detail = "backend injected explicitly"
  asked : given = none → Asks flags options requested
  unnamed : given = none → Unnamed flags options → detail = "empty solver_backend flag"
  known : given = none → requested ∈ Backend.names → backend = requested
  /-- An unknown name falls back to the default, and both stand in the detail. -/
  unknown : given = none → requested ∉ Backend.names → backend = "gauss_newton" ∧
    Text.Occurs ("'" ++ requested ++ "'") detail ∧ Text.Occurs ("'" ++ backend ++ "'") detail
  /-- Nothing is told exactly if somebody asked for a backend, and by a registered name. -/
  silent : detail = "" ↔ given = none ∧ requested ∈ Backend.names ∧ ¬ Unnamed flags options

theorem Backend.find?_eq_none {name : String} : find? name = none ↔ name ∉ names := by
  rw [find?, List.find?_eq_none, names, List.mem_map]
  simp only [beq_iff_eq]
  exact ⟨fun h ⟨b, hb, hname⟩ => h b hb hname, fun h b hb hname => h ⟨b, hb, hname⟩⟩

theorem Backend.find?_eq_some {name : String} {b : Backend} (h : find? name = some b) :
    b ∈ registered ∧ b.name = name := by
  have hname := List.find?_some (p := fun b : Backend => b.name == name) h
  exact ⟨List.mem_of_find?_eq_some h, eq_of_beq hname⟩

namespace Selection

variable {flags : Flags} {options : Options Float}

theorem requestedName_of_names {name : String} (h : options.Names name) :
    requestedName flags options = (Text.strip name, "") := by
  obtain ⟨hname, hne⟩ := h
  have hfilter : options.backend.filter (· != "") = some name := by
    rw [hname, Option.filter_some, if_pos (by simpa using hne)]
  rw [requestedName, hfilter]

theorem requestedName_of_not_names (h : ∀ name, ¬ options.Names name) :
    requestedName flags options =
      if Text.strip flags.backendText == "" then ("gauss_newton", "empty solver_backend flag")
      else (Text.strip flags.backendText, "") := by
  have hfilter : options.backend.filter (· != "") = none := by
    refine Option.filter_eq_none_iff.mpr fun name hname hne => ?_
    exact h name ⟨hname, by simpa using hne⟩
  have hstrip : Text.strip flags.backendText =
      if ((flags.get? (.text "solver_backend")).getD (.text "gauss_newton")).truthy then
        Text.strip ((flags.get? (.text "solver_backend")).getD (.text "gauss_newton")).plain
      else "" := by
    rw [Flags.backendText, Value.mention]
    split
    · rfl
    · rfl
  rw [requestedName, hfilter, hstrip]
  rfl

/-- The name that is asked for, and a note exactly if nobody asked. -/
theorem requestedName_asks (flags : Flags) (options : Options Float) :
    Asks flags options (requestedName flags options).1 ∧
      (Unnamed flags options → requestedName flags options =
        ("gauss_newton", "empty solver_backend flag")) ∧
      (¬ Unnamed flags options → (requestedName flags options).2 = "") := by
  by_cases hnames : ∃ name, options.Names name
  · obtain ⟨name, hname⟩ := hnames
    rw [requestedName_of_names hname]
    exact ⟨.options hname, fun h => absurd hname (h.1 name), fun _ => rfl⟩
  · rw [not_exists] at hnames
    rw [requestedName_of_not_names hnames]
    by_cases hblank : Text.Blank flags.backendText
    · rw [if_pos (beq_iff_eq.mpr (Text.strip_eq_empty_iff.mpr hblank))]
      exact ⟨.default ⟨hnames, hblank⟩, fun _ => rfl, fun h => absurd ⟨hnames, hblank⟩ h⟩
    · rw [if_neg fun h => hblank (Text.strip_eq_empty_iff.mp (eq_of_beq h))]
      exact ⟨.flag hnames hblank, fun h => absurd h.2 hblank, fun _ => rfl⟩

theorem fallbackDetail_eq (name : String) : fallbackDetail name =
    "requested backend " ++ ("'" ++ name ++ "'") ++
      (" is not registered, fell back to " ++ ("'" ++ "gauss_newton" ++ "'")) := by
  have hbefore : "requested backend '" = "requested backend " ++ "'" := by decide +kernel
  have hbetween : "' is not registered, fell back to '" =
      "'" ++ (" is not registered, fell back to " ++ "'") := by decide +kernel
  have hdefault : Backend.default.name = "gauss_newton" := rfl
  unfold fallbackDetail
  rw [hbefore, hbetween, hdefault]
  simp only [String.append_assoc]

theorem fallbackDetail_names (name : String) :
    Text.Occurs ("'" ++ name ++ "'") (fallbackDetail name) ∧
      Text.Occurs ("'" ++ "gauss_newton" ++ "'") (fallbackDetail name) := by
  rw [fallbackDetail_eq]
  exact ⟨((Text.Occurs.refl _).append_left _).append_right _,
    ((Text.Occurs.refl _).append_left _).append_left _⟩

theorem fallbackDetail_ne (name : String) : fallbackDetail name ≠ "" := by
  rw [fallbackDetail_eq]
  simp

/-- A choice tells what was asked for, what is used, and every deviation between the two. -/
theorem choose_tells (given : Option Backend) (flags : Flags) (options : Options Float) :
    TellsChoice given flags options (choose given flags options).backend.name
      (choose given flags options).requested (choose given flags options).detail := by
  cases given with
  | some b =>
    constructor
    case injected =>
      rintro _ ⟨⟩
      exact ⟨rfl, rfl, rfl⟩
    case silent => exact iff_of_false (by simp [choose]) nofun
    all_goals exact nofun
  | none =>
    obtain ⟨hasks, hunnamed, hnamed⟩ := requestedName_asks flags options
    unfold choose
    dsimp only
    generalize requestedName flags options = asked at hasks hunnamed hnamed
    obtain ⟨name, note⟩ := asked
    dsimp only at hasks hnamed ⊢
    cases hfind : Backend.find? name with
    | some b =>
      obtain ⟨hb, rfl⟩ := Backend.find?_eq_some hfind
      have hknown : b.name ∈ Backend.names := List.mem_map_of_mem hb
      constructor
      case injected => exact nofun
      case asked => exact fun _ => hasks
      case unnamed => exact fun _ h => (Prod.mk.inj (hunnamed h)).2
      case known => exact fun _ _ => rfl
      case unknown => exact fun _ h => absurd hknown h
      case silent =>
        refine ⟨fun hnote => ⟨rfl, hknown, fun h => ?_⟩, fun h => hnamed h.2.2⟩
        rw [(Prod.mk.inj (hunnamed h)).2] at hnote
        simp at hnote
    | none =>
      have hunknown := Backend.find?_eq_none.mp hfind
      constructor
      case injected => exact nofun
      case asked => exact fun _ => hasks
      case unnamed =>
        intro _ h
        -- the default is registered
        rw [(Prod.mk.inj (hunnamed h)).1] at hunknown
        exact absurd (by decide) hunknown
      case known => exact fun _ h => absurd h hunknown
      case unknown => exact fun _ _ => ⟨rfl, fallbackDetail_names name⟩
      case silent =>
        exact iff_of_false (fallbackDetail_ne name) fun h => hunknown h.2.1

end Selection

/-! ## The message -/

section Message

variable {message detail : String}

/-- A message that has the detail already is left as it is. -/
theorem withDetail_of_occurs (h : Text.Occurs detail (Text.strip message)) :
    withDetail message detail = message := by
  have hin : occursIn detail.toList (Text.strip message).toList = true := Text.occursIn_iff.mpr h
  unfold withDetail
  dsimp only
  rw [hin, Bool.or_true]
  rfl

theorem withDetail_of_not_occurs (h : ¬ Text.Occurs detail (Text.strip message)) :
    withDetail message detail =
      if Text.strip message == "" then detail else Text.strip message ++ " | " ++ detail := by
  have hin : occursIn detail.toList (Text.strip message).toList = false :=
    Bool.eq_false_iff.mpr (mt Text.occursIn_iff.mp h)
  have hdetail : (detail == "") = false := by
    rw [beq_eq_false_iff_ne]
    rintro rfl
    exact h (Text.occurs_empty _)
  unfold withDetail
  dsimp only
  rw [hin, hdetail]
  rfl

/-- The detail stands in the message, and so does all that it was without the blanks around. -/
theorem withDetail_occurs (message detail : String) :
    Text.Occurs detail (withDetail message detail) ∧
      Text.Occurs (Text.strip message) (withDetail message detail) := by
  by_cases h : Text.Occurs detail (Text.strip message)
  · rw [withDetail_of_occurs h]
    exact ⟨h.trans (Text.strip_occurs message), Text.strip_occurs message⟩
  · rw [withDetail_of_not_occurs h]
    split
    · rename_i hempty
      rw [eq_of_beq hempty]
      exact ⟨.refl detail, Text.occurs_empty detail⟩
    · exact ⟨(Text.Occurs.refl detail).append_left _,
        ((Text.Occurs.refl _).append_right _).append_right _⟩

end Message

/-! ## A whole solve -/

namespace Solver

/-- The parameters of a solve: those given, those of the solver, or else the standard ones. -/
def parameters (solver : Solver) (options : Option (Options Float)) : Options Float :=
  (options <|> solver.options).getD Options.standard

/-- The problem that a solve hands to its backend. -/
def handsOver (solver : Solver) (g : Graph Float) (cs : List Constraint)
    (options : Option (Options Float)) : Problem :=
  ⟨g.vertices, g.edges, g.rings, active cs, solver.parameters options⟩

/-- A backend that a solver may use: its own one, or without one the registered ones. -/
def MayUse (solver : Solver) (backend : Backend) : Prop :=
  solver.injected = some backend ∨ solver.injected = none ∧ backend ∈ Backend.registered

theorem choose_mayUse (solver : Solver) (flags : Flags) (options : Options Float) :
    solver.MayUse (Selection.choose solver.injected flags options).backend := by
  unfold MayUse Selection.choose
  cases solver.injected with
  | some backend => exact .inl rfl
  | none =>
    refine .inr ⟨rfl, ?_⟩
    dsimp only
    split
    · rename_i hfind
      exact (Backend.find?_eq_some hfind).1
    · exact List.mem_cons_self

/-- Where something counts, a solve gives what the chosen backend gives, with a note. -/
theorem solve_eq_ok_iff {solver : Solver} {flags : Flags} {g : Graph Float} {cs : List Constraint}
    {options : Option (Options Float)} (hactive : ∃ c ∈ cs, c.isEnabled = true) {r : Solution} :
    solver.solve flags g cs options = .ok r ↔ ∃ found,
      (Selection.choose solver.injected flags (solver.parameters options)).backend.solve
        (solver.handsOver g cs options) = .ok found ∧
      (Selection.choose solver.injected flags (solver.parameters options)).annotate found = r := by
  obtain ⟨c, hc, hcounts⟩ := hactive
  have hsome : (active cs).isEmpty = false := by
    rw [List.isEmpty_eq_false_iff_exists_mem]
    exact ⟨c, List.mem_filter.mpr ⟨hc, hcounts⟩⟩
  unfold solve
  dsimp only
  rw [hsome, if_neg Bool.false_ne_true, map_eq_ok]
  rfl

end Solver

/-- **Every deviation is told.** A solve that has something to solve uses the injected backend, or
a registered one: that of the name asked for, by the options or else by the flag, if there is one of
this name, and the default in every other case. The result is what this backend gave, under its
name, with the name that was asked for and a detail, which is empty exactly if a registered name was
asked for. The message contains the detail, and what the backend said up to blanks around it; it is
what the backend said where nothing has to be appended. -/
theorem backend_deviation_told (solver : Solver) (flags : Flags) (g : Graph Float)
    (cs : List Constraint) (options : Option (Options Float)) (r : Solution)
    (hactive : ∃ c ∈ cs, c.isEnabled = true) (h : solver.solve flags g cs options = .ok r) :
    TellsChoice solver.injected flags (solver.parameters options) r.backend r.requested r.detail ∧
    ∃ backend found, solver.MayUse backend ∧ backend.name = r.backend ∧
      backend.solve (solver.handsOver g cs options) = .ok found ∧
      r = { found with
        backend := r.backend, requested := r.requested, detail := r.detail, message := r.message } ∧
      Text.Occurs r.detail r.message ∧ Text.Occurs (Text.strip found.message) r.message ∧
      (Text.Occurs r.detail (Text.strip found.message) → r.message = found.message) := by
  obtain ⟨found, hfound, rfl⟩ := (Solver.solve_eq_ok_iff hactive).mp h
  obtain ⟨hdetail, hmessage⟩ := withDetail_occurs found.message
    (Selection.choose solver.injected flags (solver.parameters options)).detail
  exact ⟨Selection.choose_tells _ _ _, _, found, solver.choose_mayUse _ _, rfl, hfound, rfl,
    hdetail, hmessage, withDetail_of_occurs⟩

/-- Two points, the first of which is to stay where it is. -/
def heldPair : Graph Float where
  vertices := [{ id := .text "p", x := 0.0, y := 0.0 }, { id := .text "q", x := 3.0, y := 0.0 }]
  edges := []
  rings := []

def holdFirst : Constraint := { kind := .fixed, id := .text "f", points := [.text "p"] }

/-- The options ask for a backend that nobody registered, with a blank before its name. -/
def askNewton : Options Float := { Options.standard with backend := some " newton" }

theorem askNewton_names : askNewton.Names " newton" := ⟨rfl, by decide⟩

theorem backend_deviation_told_newton :
    ∃ r, Solver.solve {} .standard heldPair [holdFirst] (some askNewton) = .ok r ∧
      r.requested = "newton" ∧ r.backend = "gauss_newton" ∧
      Text.Occurs "'newton'" r.detail ∧ Text.Occurs r.detail r.message := by
  have hok : (Solver.solve {} .standard heldPair [holdFirst] (some askNewton)).isOk = true := by
    decide +kernel
  obtain ⟨r, hr⟩ := exists_eq_ok_of_isOk hok
  obtain ⟨htells, _, _, -, -, -, -, hdetail, -⟩ := backend_deviation_told {} .standard heldPair
    [holdFirst] (some askNewton) r ⟨holdFirst, List.mem_singleton_self _, rfl⟩ hr
  have hrequested : r.requested = "newton" := by
    have hstrip : Text.strip " newton" = "newton" := by decide +kernel
    generalize r.requested = name at htells
    cases htells.asked rfl with
    | options h =>
      obtain rfl := Option.some.inj h.1
      exact hstrip
    | flag hoptions _ => exact absurd askNewton_names (hoptions _)
    | default h => exact absurd askNewton_names (h.1 _)
  obtain ⟨hbackend, hnamed, -⟩ := htells.unknown rfl (by rw [hrequested]; decide)
  rw [hrequested] at hnamed
  exact ⟨r, hr, hrequested, hbackend, hnamed, hdetail⟩

/-- A backend that gives everything back, with blanks around its message. -/
def recording : Backend where
  name := "recording"
  solve p := .ok
    { vertices := p.vertices, rings := p.rings, success := true, status := .converged
      message := " fertig " }

/-- The message need not contain all that the backend said: a detail takes the place of blanks. -/
theorem blanks_lost_from_message :
    ∃ r found, Solver.solve { injected := some recording } .standard heldPair [holdFirst] none =
        .ok r ∧
      recording.solve (Solver.handsOver { injected := some recording } heldPair [holdFirst] none) =
        .ok found ∧
      r.backend = "recording" ∧ r.message = "fertig | backend injected explicitly" ∧
      ¬ Text.Occurs found.message r.message := by
  have hmessage : withDetail " fertig " "backend injected explicitly" =
      "fertig | backend injected explicitly" := by decide +kernel
  refine ⟨_, _, rfl, rfl, rfl, hmessage, ?_⟩
  change ¬ Text.Occurs " fertig " (withDetail " fertig " "backend injected explicitly")
  rw [hmessage, Text.Occurs, ← Text.occursIn_iff]
  decide +kernel

end Drafting
