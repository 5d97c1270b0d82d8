import Drafting.Constraint.Basic

/-!
The saved form of constraints. Everything but the type may be missing; a constraint without an
identifier gets a fresh one, and a target value is read as a number.
-/

namespace Drafting.Constraint

/-- The kind that the `type` entry of an object names. -/
def kindOfSaved (v : Value) : Except Error ConstraintKind := do
  let type ← v.entry "type"
  match type with
  | .text s =>
    match ConstraintKind.ofName? s with
    | some kind => .ok kind
    | none => .error (.unknownConstraint type)
  | .list _ | .object _ => .error .wrongKind
  | _ => .error (.unknownConstraint type)

/-- A constraint from its saved form, with `fresh` for a missing identifier. -/
def ofSaved (fresh : Value) (v : Value) : Except Error Constraint := do
  let value ← v.entryD "value" .null
  let kind ← kindOfSaved v
  let id ← v.entryD "id" .null
  let points ← (← v.entryD "points" (.list [])).parts
  let lines ← (← v.entryD "lines" (.list [])).parts
  let circles ← (← v.entryD "circles" (.list [])).parts
  let value ← match value with
    | .null => pure Value.null
    | w => Value.float <$> w.toFloat
  let enabled ← v.entryD "enabled" (.bool true)
  return {
    kind
    id := if id.truthy then id else fresh
    points
    lines
    circles
    value
    enabled }

/-- The saved form of a constraint. -/
def toSaved (c : Constraint) : Value :=
  .object [("type", .text c.kind.name), ("id", c.id), ("points", .list c.points),
    ("lines", .list c.lines), ("circles", .list c.circles), ("value", c.value),
    ("enabled", c.enabled)]

/-- Whether two constraints are equal field by field, an undefined number being equal to itself. -/
def equal (c d : Constraint) : Bool := c.agrees true d

end Drafting.Constraint
