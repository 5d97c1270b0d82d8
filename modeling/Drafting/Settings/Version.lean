/-!
The version of the application.
-/

namespace Drafting

/-- A version number with a suffix, which is empty for a stable release. -/
structure Version where
  major : Nat
  minor : Nat
  patch : Nat
  suffix : String
  deriving DecidableEq, Repr

namespace Version

/-- The version of this application. -/
def current : Version := ⟨0, 1, 0, "alpha"⟩

/-- The name of this application. -/
def application : String := "Sketcher"

/-- The three numbers of a version. -/
def numbers (v : Version) : String :=
  toString v.major ++ "." ++ toString v.minor ++ "." ++ toString v.patch

/-- The numbers with the suffix. -/
def label (v : Version) : String :=
  if v.suffix == "" then v.numbers else v.numbers ++ "-" ++ v.suffix

/-- The label as it is shown to people. -/
def full (v : Version) : String := "v" ++ v.label

end Version

end Drafting
