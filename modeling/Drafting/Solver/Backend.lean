import Drafting.Fit.Method
import Drafting.Solver.Bounded
import Drafting.Solver.GaussNewton

/-!
Backends: named ways to solve a problem. Two are built in and registered by name.
-/

namespace Drafting

/-- What is to be solved: the parts of a graph, the constraints between them, and parameters. -/
structure Problem where
  vertices : List (Vertex Float)
  edges : List Edge
  rings : List (Ring Float)
  constraints : List Constraint
  options : Options Float

/-- The result of a solve, and which backend gave it. -/
structure Solution where
  vertices : List (Vertex Float)
  rings : List (Ring Float)
  success : Bool
  status : Status
  iterations : Nat := 0
  error : Float := 0.0
  message : String
  variableCount : Nat := 0
  residualCount : Nat := 0
  backend : String := ""
  requested : String := ""
  detail : String := ""

/-- A named way to solve problems. -/
structure Backend where
  name : String
  solve : Problem → Except Error Solution

namespace Problem

/-- The points in the order of the graph. -/
def vertexVector (p : Problem) : Vector (Vertex Float) p.vertices.length :=
  ⟨p.vertices.toArray, by simp⟩

/-- The circles in the order of the graph. -/
def ringVector (p : Problem) : Vector (Ring Float) p.rings.length :=
  ⟨p.rings.toArray, by simp⟩

/-- The compiled system of a problem. -/
def system (p : Problem) : Except Error (System Float p.vertices.length p.rings.length) :=
  System.compile p.vertexVector p.edges p.ringVector p.constraints p.options

end Problem

/-- The solution that an outcome is. -/
def Outcome.solution {n k : Nat} (o : Outcome Float n k) (message : String) : Solution where
  vertices := o.vertices.toList
  rings := o.rings.toList
  success := o.success
  status := o.status
  iterations := o.iterations
  error := o.error
  message
  variableCount := 2 * n + k
  residualCount := o.residualCount

/-- The solver of symmetric systems of floating-point numbers. -/
def floatSolver : LinearSolver Float := fun n a b =>
  let x := Linear.solveSymmetric (a.toArray.map (·.toArray)) b.toArray
  Vector.ofFn fun (i : Fin n) => x.getD i.val 0.0

namespace Backend

/-- The damped Gauss–Newton method with some solver of its linear systems. -/
def gaussNewtonWith (linear : LinearSolver Float) : Backend where
  name := "gauss_newton"
  solve p := do
    let s ← p.system
    let o := GaussNewton.solve linear s
    return o.solution (GaussNewton.message o)

/-- The damped Gauss–Newton method. -/
def gaussNewton : Backend := gaussNewtonWith floatSolver

/-- A bounded least squares optimiser under a name. -/
def bounded (name : String) (optimiser : Fit.Optimiser Float) : Backend where
  name
  solve p := do
    let s ← p.system
    let (o, note) := Bounded.solve optimiser s
    return o.solution note.message

/-- The least squares method of some name. -/
def leastSquares (method : String) : Backend :=
  bounded ("scipy_" ++ method) (Fit.optimiser method)

/-- The registered backends, in the order of registration. -/
def registered : List Backend := [gaussNewton, leastSquares "trf"]

/-- The registered backend with a name. -/
def find? (name : String) : Option Backend := registered.find? (·.name == name)

/-- The backend where nothing else is asked for. -/
def default : Backend := gaussNewton

end Backend

end Drafting
