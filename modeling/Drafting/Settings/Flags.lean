import Drafting.Document.Access
import Drafting.Document.Order

/-!
Feature flags: settings of any value under names that are keys, in the order in which they were
first set.
-/

namespace Drafting

/-- The flags that are set. -/
structure Flags where
  entries : List (Value × Value)

namespace Flags

/-- The flags as they are at first. -/
def standard : Flags where
  entries := [
    (.text "solver_debug", .bool false),
    (.text "sketch_debug", .bool false),
    (.text "solver_backend", .text "gauss_newton"),
    (.text "auto_constraints", .bool true),
    (.text "auto_constraints_indexed_points", .bool false)]

/-- The value of a flag, if it is set. -/
def get? (f : Flags) (name : Value) : Option Value :=
  (f.entries.find? (·.1 == name)).map (·.2)

/-- Whether the value of a flag counts as true. A flag that is not set does not. -/
def isEnabled (f : Flags) (name : Value) : Bool := ((f.get? name).map Value.truthy).getD false

/-- The value of a flag under a name that must be a key, if it is set. -/
def look (f : Flags) (name : Value) : Except Error (Option Value) := return f.get? (← name.asKey)

/-- The entries with a flag set: in its old place, or else at the end. -/
def setEntry (name value : Value) : List (Value × Value) → List (Value × Value)
  | [] => [(name, value)]
  | e :: es => if e.1 == name then (e.1, value) :: es else e :: setEntry name value es

/-- The flags after one of them was set. -/
def set (f : Flags) (name value : Value) : Except Error Flags :=
  return ⟨setEntry (← name.asKey) value f.entries⟩

/-- The entries by name. They have an order only if the names have. -/
def sorted (f : Flags) : Except Error (List (Value × Value)) := do
  let names ← Value.sorted (f.entries.map (·.1))
  return names.filterMap fun name => (f.get? name).map fun value => (name, value)

end Flags

end Drafting
