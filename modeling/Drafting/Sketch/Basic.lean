import Drafting.Constraint.Duplicate
import Drafting.Graph.Implicit
import Drafting.Solver.Selection
import Drafting.Suggestion
import Drafting.WriteBack

/-!
Sketches: elements and constraints that are edited together and solved as a whole. An operation
gives the sketch it leaves behind, and beside it the answer or the error; a failed solve is no
error but marks the sketch as invalid.
-/

namespace Drafting

/-- Whether the last solve went through. -/
inductive SketchState where
  | editing
  | invalid
  deriving DecidableEq, Repr

/-- The name of a state. -/
def SketchState.name : SketchState → String
  | editing => "EDITING"
  | invalid => "INVALID"

/-- A sketch. A solver is no part of it: it is solved by the built-in one. -/
structure Sketch where
  name : Value := .text "Sketch"
  id : Value
  elements : List (Element Float) := []
  constraints : List Constraint := []
  state : SketchState := .editing
  /-- Whether anything changed since this was last cleared. -/
  dirty : Bool := false
  valid : Bool := true
  errorMessage : Option String := none
  /-- How many identifiers were issued so far. -/
  issued : Nat := 0

/-- What an operation leaves behind, and its answer or error. -/
abbrev Effect (β : Type) : Type := Sketch × Except Error β

namespace Sketch

/-- An empty sketch under an identifier issued for it. -/
def empty : Sketch where
  id := .issued 0
  issued := 1

/-- The first element with an identifier. -/
def element? (s : Sketch) (id : Value) : Option (Element Float) := s.elements.find? (·.id == id)

/-- The first constraint with an identifier. -/
def constraint? (s : Sketch) (id : Value) : Option Constraint := s.constraints.find? (·.id == id)

/-- Adds a constraint, unless it names too little or says the same as one that is there. A repeated
one is reported by its summary, which it must have. -/
def addConstraint (s : Sketch) (c : Constraint) : Effect (Option Constraint) :=
  if !c.isValid then (s, .ok none)
  else
    match c.duplicateIndex? s.constraints with
    | .error e => (s, .error e)
    | .ok (some _) => (s, c.summary.map fun _ => none)
    | .ok none => ({ s with constraints := s.constraints ++ [c], dirty := true }, .ok (some c))

/-- Adds constraints one after the other, up to the first that fails. -/
def addConstraints (s : Sketch) : List Constraint → Effect Unit
  | [] => (s, .ok ())
  | c :: cs =>
    match s.addConstraint c with
    | (t, .ok _) => t.addConstraints cs
    | (t, .error e) => (t, .error e)

/-- Adds an element, and with it the constraints that are suggested for it. -/
def addElement (s : Sketch) (flags : Flags) (e : Element Float) (suggest : Bool) :
    Effect Suggestions :=
  let grown := { s with elements := s.elements ++ [e], dirty := true }
  if !suggest then (grown, .ok {})
  else
    match Suggestion.detect flags s.issued e s.elements s.constraints with
    | .error err => (grown, .error err)
    | .ok found =>
      let numbered := { grown with issued := s.issued + found.constraints.length }
      match numbered.addConstraints found.constraints with
      | (t, .ok _) => (t, .ok found)
      | (t, .error err) => (t, .error err)

/-- The list with the first item that satisfies `p` replaced, if there is one. -/
def replaceFirst? {β : Type} (p : β → Bool) (b : β) : List β → Option (List β)
  | [] => none
  | a :: as => if p a then some (b :: as) else (replaceFirst? p b as).map (a :: ·)

/-- The solution of all constraints together with those that keep rectangles along the axes, and
the elements at the solved positions. -/
def cycle (s : Sketch) (flags : Flags) (options : Option (Options Float)) :
    Except Error (Solution × List (Element Float)) := do
  let graph ← Graph.ofElements s.elements
  let keeping ←
    if s.constraints.any (·.isEnabled) then Implicit.axisConstraints s.issued s.elements
    else pure []
  let constraints := s.constraints ++ keeping
  let result ← Solver.solve {} flags graph constraints options
  if result.status = .noConstraints then return (result, s.elements)
  let elements ← Solved.elements ⟨result.vertices, result.rings⟩ s.elements
  return (result, elements)

/-- Solves the sketch. If anything fails on the way, the sketch is marked as invalid and otherwise
left as it was. -/
def solve (s : Sketch) (flags : Flags) (options : Option (Options Float)) :
    Sketch × Option Solution :=
  match s.cycle flags options with
  | .ok (result, elements) =>
    ({ s with elements, state := .editing, valid := true, errorMessage := none, dirty := true },
      some result)
  | .error e =>
    ({ s with
        state := .invalid, valid := false
        errorMessage := some ("Constraint solver error: " ++ e.message) }, none)

/-- Replaces the first element with the same identifier, and then solves the sketch if asked to
and if it has constraints. -/
def updateElement (s : Sketch) (flags : Flags) (e : Element Float) (thenSolve : Bool) :
    Effect (Option Solution) :=
  match replaceFirst? (·.id == e.id) e s.elements with
  | none => (s, .error (.dangling .element e.id s.name.mention))
  | some elements =>
    let changed := { s with elements, dirty := true }
    if thenSolve && !s.constraints.isEmpty then
      let (t, result) := changed.solve flags none
      (t, .ok result)
    else (changed, .ok none)

/-- Takes one item out of a list whose items come with places, which tell apart what is equal: the
first one that is the given item or agrees with it. -/
def takeOut {β : Type} (agrees : β → β → Bool) (xs : List (β × Nat)) (x : β × Nat) :
    List (β × Nat) :=
  xs.eraseP fun y => y.2 == x.2 || agrees y.1 x.1

/-- The constraints that name something of a list of names, with their places. Everything that a
constraint names must be a key, as it is looked up. -/
def constraintsOn (s : Sketch) (names : List Value) : Except Error (List (Constraint × Nat)) := do
  let _ ← (s.constraints.flatMap (·.references)).mapM Value.asKey
  return s.constraints.zipIdx.filter fun c => c.1.references.any names.contains

/-- Removes the first element with an identifier and all constraints that name a part of it, which
are found first and then taken out one after the other. The answer is the number of these
constraints. -/
def removeElement (s : Sketch) (id : Value) : Effect Nat :=
  match s.elements.zipIdx.find? (·.1.id == id) with
  | none => (s, .ok 0)
  | some e =>
    match Graph.ofElements [e.1] >>= fun graph => s.constraintsOn graph.names with
    | .error err => (s, .error err)
    | .ok dropped =>
      ({ s with
          elements := (takeOut Element.agrees s.elements.zipIdx e).map (·.1)
          constraints :=
            (dropped.foldl (takeOut (Constraint.agrees false)) s.constraints.zipIdx).map (·.1)
          dirty := true }, .ok dropped.length)

/-- Removes the first constraint with an identifier, and tells whether there was one. -/
def removeConstraint (s : Sketch) (id : Value) : Sketch × Bool :=
  match s.constraints.zipIdx.find? (·.1.id == id) with
  | none => (s, false)
  | some c =>
    ({ s with
        constraints := (takeOut (Constraint.agrees false) s.constraints.zipIdx c).map (·.1)
        dirty := true }, true)

/-- The first constraint with an identifier changed, if there is one. -/
def modifyConstraint? (s : Sketch) (id : Value) (change : Constraint → Constraint) :
    Option Sketch := do
  let c ← s.constraint? id
  let constraints ← replaceFirst? (·.id == id) (change c) s.constraints
  return { s with constraints }

/-- Changes the target value of the first constraint with an identifier, and tells whether there
was one. The value is kept as it is given. -/
def updateValue (s : Sketch) (id value : Value) : Sketch × Bool :=
  match s.modifyConstraint? id fun c => { c with value } with
  | none => (s, false)
  | some t => ({ t with dirty := true }, true)

/-- Removes all constraints. -/
def clearConstraints (s : Sketch) : Sketch := { s with constraints := [], dirty := true }

/-- The summary of a sketch for people. -/
def summary (s : Sketch) : String :=
  "Sketch('" ++ s.name.plain ++ "', " ++ toString s.elements.length ++ " elements, " ++
    toString s.constraints.length ++ " constraints)"

end Sketch

end Drafting
