import Drafting.Settings.Flags
import Drafting.Solver.Backend
import Drafting.Text.Blank

/-!
Choosing a backend and solving with it. An injected backend is used before one named in the
options, that before the one named by the flag, and an unknown name falls back to the default.
Every deviation from what was asked is told in the result and its message.
-/

namespace Drafting

/-- A solver, possibly with a backend and options of its own. -/
structure Solver where
  injected : Option Backend := none
  options : Option (Options Float) := none

/-- A backend that was chosen, the name that was asked for, and what is to be told about it. -/
structure Selection where
  backend : Backend
  requested : String
  detail : String

namespace Selection

/-- The name that the options or else the flag asks for, and what is to be told about it. -/
def requestedName (flags : Flags) (options : Options Float) : String × String :=
  match options.backend.filter (· != "") with
  | some name => (Text.strip name, "")
  | none =>
    let flag := (flags.get? (.text "solver_backend")).getD (.text Backend.default.name)
    let name := if flag.truthy then Text.strip flag.plain else ""
    if name == "" then (Backend.default.name, "empty solver_backend flag") else (name, "")

/-- What is told when a name is not registered. -/
def fallbackDetail (name : String) : String :=
  "requested backend '" ++ name ++ "' is not registered, fell back to '" ++
    Backend.default.name ++ "'"

/-- The choice for a solver. -/
def choose (injected : Option Backend) (flags : Flags) (options : Options Float) : Selection :=
  match injected with
  | some backend => ⟨backend, backend.name, "backend injected explicitly"⟩
  | none =>
    let (name, note) := requestedName flags options
    match Backend.find? name with
    | some backend => ⟨backend, name, note⟩
    | none => ⟨Backend.default, name, fallbackDetail name⟩

end Selection

/-- Whether a list of characters occurs in another. -/
def occursIn (part : List Char) : List Char → Bool
  | [] => part.isEmpty
  | c :: cs => part.isPrefixOf (c :: cs) || occursIn part cs

/-- A message with a detail appended, unless it has it already. -/
def withDetail (message detail : String) : String :=
  let base := Text.strip message
  if detail == "" || occursIn detail.toList base.toList then message
  else if base == "" then detail
  else base ++ " | " ++ detail

/-- A result that tells which backend gave it and why. -/
def Selection.annotate (selection : Selection) (result : Solution) : Solution :=
  { result with
    backend := selection.backend.name
    requested := selection.requested
    detail := selection.detail
    message := withDetail result.message selection.detail }

namespace Solver

/-- The result where there is nothing to solve. -/
def unconstrained (vertices : List (Vertex Float)) (rings : List (Ring Float)) : Solution where
  vertices
  rings
  success := true
  status := .noConstraints
  message := "Keine Constraints"
  variableCount := 2 * vertices.length + rings.length

/-- The constraints that count. -/
def active (constraints : List Constraint) : List Constraint :=
  constraints.filter (·.isEnabled)

/-- Solves the enabled ones of the constraints between points, edges and circles. -/
def solve (solver : Solver) (flags : Flags) (graph : Graph Float) (constraints : List Constraint)
    (options : Option (Options Float)) : Except Error Solution :=
  let chosen := (options <|> solver.options).getD Options.standard
  let counting := active constraints
  if counting.isEmpty then .ok (unconstrained graph.vertices graph.rings)
  else
    let selection := Selection.choose solver.injected flags chosen
    let problem : Problem := ⟨graph.vertices, graph.edges, graph.rings, counting, chosen⟩
    (selection.backend.solve problem).map selection.annotate

end Solver

end Drafting
