import Drafting.Constraint.Saved
import Drafting.Geometry.Saved
import Drafting.Sketch.Basic

/-!
The saved form of sketches: name, identifier, elements and constraints. A sketch that is read is
as if it had just been made: valid and unchanged.
-/

namespace Drafting.Sketch

/-- The saved form of a sketch. -/
def toSaved (s : Sketch) : Except Error Value := do
  let elements ← s.elements.mapM (·.toSaved)
  return .object [("name", s.name), ("id", s.id), ("elements", .list elements),
    ("constraints", .list (s.constraints.map (·.toSaved)))]

/-- Constraints from their saved forms, with identifiers from `issued` on for those without. -/
def constraintsOfSaved : Nat → List Value → Except Error (List Constraint)
  | _, [] => .ok []
  | issued, v :: vs => do
    let c ← Constraint.ofSaved (.issued issued) v
    return c :: (← constraintsOfSaved (issued + 1) vs)

/-- A sketch from its saved form, with identifiers from `issued` on for what has none. -/
def ofSaved (issued : Nat) (v : Value) : Except Error Sketch := do
  let name ← v.entryD "name" (.text "Sketch")
  let id ← v.entryD "id" (.issued issued)
  let elements ← (← (← v.entryD "elements" (.list [])).parts).mapM Element.ofSaved
  let saved ← (← v.entryD "constraints" (.list [])).parts
  let constraints ← constraintsOfSaved (issued + 1) saved
  return { name, id, elements, constraints, issued := issued + 1 + constraints.length }

end Drafting.Sketch
