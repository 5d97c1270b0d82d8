import Drafting.System.Equation
import Drafting.Graph.Basic
import Drafting.Constraint.Basic

/-!
Compiling constraints against a graph. Names are looked up in tables, so that all of them must be
keys. Every name is resolved once, to the first thing with that name; a name without a referent is
an error. A constraint that fixes something pins points, any other gives one equation if the
numbers of things it names fit one of its kind's patterns, and nothing otherwise; one that gives
nothing is reported by its summary, which it must have.
-/

namespace Drafting

/-- An equation with its target and the constraint it comes from. -/
structure Term (α : Type) (n k : Nat) where
  constraint : Constraint
  equation : Equation n k
  target : α

/-- What a constraint contributes. -/
inductive Contribution (α : Type) (n k : Nat) where
  | pins (points : List (Fin n))
  | term (t : Term α n k)
  | nothing

/-- A compiled problem: its points and circles, which points are pinned, and its equations. -/
structure System (α : Type) (n k : Nat) where
  vertices : Vector (Vertex α) n
  rings : Vector (Ring α) k
  options : Options α
  pinned : Vector Bool n
  terms : List (Term α n k)

variable {α : Type} {n k : Nat}

/-- The equation of a constraint: of the patterns of its kind, the first that fits the numbers of
points, lines and circles it names. -/
def ConstraintKind.equation? (kind : ConstraintKind) (points : List (Fin n))
    (lines : List (LineRef n)) (circles : List (CircleRef n k)) : Option (Equation n k) :=
  match kind with
  | .horizontal =>
    match points, lines with
    | [p, q], _ => some (.levelPoints p q)
    | _, [l] => some (.levelLine l)
    | _, _ => none
  | .vertical =>
    match points, lines with
    | [p, q], _ => some (.plumbPoints p q)
    | _, [l] => some (.plumbLine l)
    | _, _ => none
  | .coincident =>
    match points, lines, circles with
    | [p, q], _, _ => some (.samePoint p q)
    | [p], [l], _ => some (.pointOnLine p l)
    | _, [l], [c] => some (.centerOnLine c l)
    | [p], _, [c] => some (.pointAtCenter p c)
    | _, _, [c, d] => some (.sameCenter c d)
    | _, _, _ => none
  | .distance =>
    match points, lines, circles with
    | [], [l], [] => some (.lineLength l)
    | _, [l], [c] => some (.lineCircleDistance l c)
    | _, _, [c, d] => some (.circleDistance c d)
    | p :: q :: _, _, _ => some (.pointDistance p q)
    | [p], [l], _ => some (.pointLineDistance p l)
    | _, _, _ => none
  | .radius =>
    match circles with
    | c :: _ => some (.radius c)
    | [] => none
  | .angle =>
    match lines with
    | [l, m] => some (.angleBetween l m)
    | [l] => some (.lineAngle l)
    | _ => none
  | .parallel =>
    match lines with
    | [l, m] => some (.parallel l m)
    | _ => none
  | .perpendicular =>
    match lines with
    | [l, m] => some (.perpendicular l m)
    | _ => none
  | .equalLength =>
    match lines with
    | [l, m] => some (.equalLength l m)
    | _ => none
  | .tangent =>
    match points, lines, circles with
    | _, [l], [c] => some (.tangentLine l c)
    | _, _, [c, d] => some (.tangentCircles c d)
    | [p], _, [c] => some (.pointOnCircle p c)
    | _, _, _ => none
  | .concentric =>
    match circles with
    | [c, d] => some (.sameCenter c d)
    | _ => none
  | .midpoint =>
    match points, lines with
    | [p], [l] => some (.midpoint p l)
    | _, _ => none
  | .fixed => none

/-- The place of the first point with a name. -/
def resolvePoint (vertices : Vector (Vertex α) n) (owner : String) (id : Value) :
    Except Error (Fin n) := do
  let id ← id.asKey
  match vertices.findFinIdx? (·.id == id) with
  | some i => return i
  | none => throw (.dangling .point id owner)

/-- The ends of the first line with a name. -/
def resolveLine (vertices : Vector (Vertex α) n) (edges : List Edge) (owner : String)
    (id : Value) : Except Error (LineRef n) := do
  let id ← id.asKey
  match edges.find? (·.id == id) with
  | some e =>
    let p1 ← resolvePoint vertices owner e.p1
    let p2 ← resolvePoint vertices owner e.p2
    return ⟨p1, p2⟩
  | none => throw (.dangling .line id owner)

/-- The center and the radius of the first circle with a name. -/
def resolveCircle (vertices : Vector (Vertex α) n) (rings : Vector (Ring α) k) (owner : String)
    (id : Value) : Except Error (CircleRef n k) := do
  let id ← id.asKey
  match rings.findFinIdx? (·.id == id) with
  | some i =>
    let center ← resolvePoint vertices owner (rings.get i).center
    return ⟨center, i⟩
  | none => throw (.dangling .circle id owner)

/-- What a constraint contributes to the system over the given points, lines and circles. -/
def Constraint.compile [Scalar α] (vertices : Vector (Vertex α) n) (edges : List Edge)
    (rings : Vector (Ring α) k) (c : Constraint) : Except Error (Contribution α n k) := do
  let points ← c.points.mapM (resolvePoint vertices c.owner)
  let lines ← c.lines.mapM (resolveLine vertices edges c.owner)
  let circles ← c.circles.mapM (resolveCircle vertices rings c.owner)
  if c.kind = .fixed then return .pins (points ++ circles.map (·.center))
  match c.kind.equation? points lines circles with
  | some equation => return .term ⟨c, equation, ← c.target⟩
  | none =>
    let _ ← c.summary
    return .nothing

/-- The points that contributions pin. -/
def Contribution.pinned : Contribution α n k → List (Fin n)
  | pins points => points
  | _ => []

/-- The term that a contribution is. -/
def Contribution.term? : Contribution α n k → Option (Term α n k)
  | term t => some t
  | _ => none

/-- The names of all points, lines and circles, in this order. -/
def tableKeys (vertices : Vector (Vertex α) n) (edges : List Edge) (rings : Vector (Ring α) k) :
    List Value :=
  vertices.toList.map (·.id) ++ edges.map (·.id) ++ rings.toList.map (·.id)

/-- The system of points, lines, circles and the enabled ones of the constraints. -/
def System.compile [Scalar α] (vertices : Vector (Vertex α) n) (edges : List Edge)
    (rings : Vector (Ring α) k) (constraints : List Constraint) (options : Options α) :
    Except Error (System α n k) := do
  let _ ← (tableKeys vertices edges rings).mapM Value.asKey
  let parts ← (constraints.filter (·.isEnabled)).mapM (·.compile vertices edges rings)
  let pins := parts.flatMap (·.pinned)
  return {
    vertices
    rings
    options
    pinned := Vector.ofFn fun i => (vertices.get i).fixed.truthy || pins.contains i
    terms := parts.filterMap (·.term?) }

end Drafting
