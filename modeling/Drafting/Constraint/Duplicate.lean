import Drafting.Constraint.Basic
import Drafting.Document.Order

/-!
Duplicates: constraints that say the same. The order in which a constraint names things does not
matter, and target values may differ by less than a thousand-millionth. Names that have no order
cannot be compared in this way.
-/

namespace Drafting.Constraint

/-- The difference below which two target values count as equal. -/
def targetTolerance : Float := 1e-9

/-- Whether two lists have the same names, in whatever order. -/
def sameNames (xs ys : List Value) : Except Error Bool := do
  let xs ← Value.sorted xs
  let ys ← Value.sorted ys
  return xs == ys

/-- Whether two constraints name the same things, in whatever order: points, lines, circles. -/
def sameReferences (c d : Constraint) : Except Error Bool := do
  unless ← sameNames c.points d.points do return false
  unless ← sameNames c.lines d.lines do return false
  sameNames c.circles d.circles

/-- Whether two constraints have the same target, up to the tolerance. -/
def sameTarget (c d : Constraint) : Except Error Bool := do
  let a ← c.target (α := Float)
  let b ← d.target (α := Float)
  return decide ((a - b).abs < targetTolerance)

/-- Whether two constraints say the same. Names are compared only for constraints of one kind, and
target values are read only where they matter. -/
def sameAs (c d : Constraint) : Except Error Bool := do
  if c.kind != d.kind then return false
  unless ← c.sameReferences d do return false
  if c.kind.isDimension then c.sameTarget d else return true

/-- The place of the first constraint that says the same as `c`. -/
def duplicateIndex? (c : Constraint) : List Constraint → Except Error (Option Nat)
  | [] => .ok none
  | d :: ds => do
    if ← d.sameAs c then return some 0
    return (← duplicateIndex? c ds).map (· + 1)

end Drafting.Constraint
