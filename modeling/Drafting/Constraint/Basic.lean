import Drafting.Document.Access
import Drafting.Scalar

/-!
Constraints: relations that the solver establishes between points, edges and circles of the graph,
which they name. A name is any value; those of a drawing's parts are texts. Which equations a
constraint stands for depends on its kind and on how many things of each sort it names.
-/

namespace Drafting

/-- The kinds of constraints. -/
inductive ConstraintKind where
  | horizontal
  | vertical
  | coincident
  | distance
  | radius
  | angle
  | parallel
  | perpendicular
  | equalLength
  | tangent
  | concentric
  | midpoint
  | fixed
  deriving DecidableEq, Repr

namespace ConstraintKind

/-- Every kind, in the order of declaration. -/
def all : List ConstraintKind :=
  [horizontal, vertical, coincident, distance, radius, angle, parallel, perpendicular,
    equalLength, tangent, concentric, midpoint, fixed]

/-- The name of a kind in documents and messages. -/
def name : ConstraintKind → String
  | horizontal => "HORIZONTAL"
  | vertical => "VERTICAL"
  | coincident => "COINCIDENT"
  | distance => "DISTANCE"
  | radius => "RADIUS"
  | angle => "ANGLE"
  | parallel => "PARALLEL"
  | perpendicular => "PERPENDICULAR"
  | equalLength => "EQUAL_LENGTH"
  | tangent => "TANGENT"
  | concentric => "CONCENTRIC"
  | midpoint => "MIDPOINT"
  | fixed => "FIXED"

/-- The kind with a name. -/
def ofName? (s : String) : Option ConstraintKind := all.find? (·.name == s)

theorem ofName?_name (k : ConstraintKind) : ofName? k.name = some k := by
  cases k <;> decide

/-- The place of a kind in the order of declaration, from one. -/
def number (k : ConstraintKind) : Nat := all.idxOf k + 1

/-- The least number of things that a constraint of a kind names. -/
def minReferences : ConstraintKind → Nat
  | horizontal | vertical | distance | radius | angle | fixed => 1
  | coincident | parallel | perpendicular | equalLength | tangent | concentric | midpoint => 2

/-- Whether constraints of a kind have a target value. -/
def isDimension : ConstraintKind → Bool
  | distance | radius | angle => true
  | _ => false

end ConstraintKind

/-- A constraint. Its value is null where it has none; a constraint whose `enabled` value does not
count as true is ignored by the solver. -/
structure Constraint where
  kind : ConstraintKind
  id : Value
  points : List Value := []
  lines : List Value := []
  circles : List Value := []
  value : Value := .null
  enabled : Value := .bool true

namespace Constraint

/-- Everything a constraint names: points, then lines, then circles. -/
def references (c : Constraint) : List Value := c.points ++ c.lines ++ c.circles

/-- Whether the solver takes the constraint into account. -/
def isEnabled (c : Constraint) : Bool := c.enabled.truthy

/-- The target value; a missing one counts as zero. -/
def target {α : Type} [Scalar α] (c : Constraint) : Except Error α :=
  match c.value with
  | .null => .ok Scalar.zero
  | v => Scalar.read v

/-- What is wrong with a constraint that names too little. -/
def defect? (c : Constraint) : Option String :=
  let required := c.kind.minReferences
  let actual := c.references.length
  if actual < required then
    some (c.kind.name ++ " benötigt " ++ toString required ++ " Referenzen, hat aber nur " ++
      toString actual)
  else none

/-- Whether a constraint names enough. -/
def isValid (c : Constraint) : Bool := c.defect?.isNone

/-- The summary of a constraint for people. There is none if it names anything by other than a
text. -/
def summary (c : Constraint) : Except Error String := do
  let names ← Value.texts 0 c.references
  let value := match c.value with
    | .null => ""
    | v => "=" ++ v.plain
  return c.kind.name ++ value ++ "(" ++ ", ".intercalate names ++ ")"

/-- Equality of constraints, field by field. With `reflexive` an undefined number counts as equal to
itself. -/
def agrees (reflexive : Bool) (c d : Constraint) : Bool :=
  c.kind == d.kind && c.id.same reflexive d.id && Value.sameItems reflexive c.points d.points &&
    Value.sameItems reflexive c.lines d.lines && Value.sameItems reflexive c.circles d.circles &&
    c.value.same reflexive d.value && c.enabled.same reflexive d.enabled

/-- Who refers to a missing thing: kind and identifier of a constraint. -/
def owner (c : Constraint) : String := c.kind.name ++ " " ++ c.id.plain

end Constraint

end Drafting
