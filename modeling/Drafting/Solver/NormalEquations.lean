import Drafting.Scalar

/-!
The damped normal equations `(JᵀJ + λ I) dx = −Jᵀ r` of a least squares step. Rows and columns of
fixed variables are those of the identity and their right-hand sides are zero, so that fixed
variables do not move. The Jacobian is given by its columns.
-/

namespace Drafting

open Scalar

variable {α : Type} [Scalar α] {n : Nat}

/-- A way to solve symmetric systems. -/
abbrev LinearSolver (α : Type) : Type :=
  (n : Nat) → Vector (Vector α n) n → Vector α n → Vector α n

namespace NormalEquations

/-- An entry of the identity matrix. -/
def unitEntry (i j : Fin n) : α := if i = j then one else zero

/-- An entry of the matrix. -/
def entry (columns : Vector (List α) n) (damping : α) (fixed : Vector Bool n) (i j : Fin n) : α :=
  if fixed.get i || fixed.get j then unitEntry i j
  else dot (columns.get i) (columns.get j) + damping * unitEntry i j

/-- The matrix, by rows. -/
def matrix (columns : Vector (List α) n) (damping : α) (fixed : Vector Bool n) :
    Vector (Vector α n) n :=
  Vector.ofFn fun i => Vector.ofFn fun j => entry columns damping fixed i j

/-- The right-hand side. -/
def rightSide (columns : Vector (List α) n) (r : List α) (fixed : Vector Bool n) : Vector α n :=
  Vector.ofFn fun i => if fixed.get i then zero else -(dot (columns.get i) r)

/-- Whether every number of a vector is finite. -/
def allFinite (x : Vector α n) : Bool := x.toList.all isFinite

/-- The step that solves the equations, exactly zero for fixed variables. There is none where a
number of the equations is not finite. -/
def step? (solve : LinearSolver α) (columns : Vector (List α) n) (r : List α) (damping : α)
    (fixed : Vector Bool n) : Option (Vector α n) :=
  let a := matrix columns damping fixed
  let b := rightSide columns r fixed
  if a.toList.all allFinite && allFinite b then
    let dx := solve n a b
    some (Vector.ofFn fun i => if fixed.get i then zero else dx.get i)
  else none

end NormalEquations

end Drafting
