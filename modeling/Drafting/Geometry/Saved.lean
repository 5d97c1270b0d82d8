import Drafting.Geometry.Element

/-!
The saved form of elements: an object with the tag of the kind, the identifier and the fields of
the shape. A point is saved as an object and read from an object or a list. Fields are read in the
order of the shape's arguments, the identifier last, and the first that is wrong decides the error.
-/

namespace Drafting

variable {α : Type} [Scalar α]

/-- A point from its two coordinates. -/
def Point.read (x y : Value) : Except Error (Point α) := do
  let x ← Scalar.read x
  let y ← Scalar.read y
  pure ⟨x, y⟩

/-- A point from an object with coordinates, or from a list that starts with them. -/
def Point.ofSaved (v : Value) : Except Error (Point α) :=
  match v with
  | .list (x :: y :: _) => Point.read x y
  | .list _ => .error .tooShort
  | other => do
    let x ← other.entry "x"
    let y ← other.entry "y"
    Point.read x y

/-- A number in an entry of an object. -/
def numberEntry (v : Value) (key : String) : Except Error α := do
  Scalar.read (← v.entry key)

/-- A point in an entry of an object. -/
def pointEntry (v : Value) (key : String) : Except Error (Point α) := do
  Point.ofSaved (← v.entry key)

/-- The shape of a kind, from the fields of an object. -/
def Shape.ofSaved (kind : ElementKind) (v : Value) : Except Error (Shape α) :=
  match kind with
  | .line => return .line (← pointEntry v "start") (← pointEntry v "end")
  | .hline => return .hline (← pointEntry v "start") (← numberEntry v "length")
  | .vline => return .vline (← pointEntry v "start") (← numberEntry v "length")
  | .rectangle => return .rectangle (← pointEntry v "start") (← pointEntry v "end")
  | .circle => return .circle (← pointEntry v "center") (← numberEntry v "radius")
  | .arc =>
    return .arc (← pointEntry v "center") (← numberEntry v "radius")
      (← numberEntry v "start_angle") (← numberEntry v "end_angle")
  | .spline => return .spline (← (← (← v.entryD "points" (.list [])).parts).mapM Point.ofSaved)

/-- The kind that the `type` entry of an object names. -/
def ElementKind.ofSaved (v : Value) : Except Error ElementKind := do
  let type ← v.entryD "type" .null
  match type with
  | .text s =>
    match ElementKind.ofTag? s with
    | some kind => .ok kind
    | none => .error (.unknownElement type)
  | _ => .error (.unknownElement type)

/-- An element from its saved form. -/
def Element.ofSaved (v : Value) : Except Error (Element α) := do
  let kind ← ElementKind.ofSaved v
  let shape ← Shape.ofSaved kind v
  let id ← v.entry "id"
  return ⟨id, shape⟩

/-- The saved form of a point. -/
def Point.toSaved (p : Point Float) : Value :=
  .object [("x", .float p.x), ("y", .float p.y)]

/-- The fields of a shape in a saved element. -/
def Shape.fields : Shape Float → List (String × Value)
  | line start stop => [("start", start.toSaved), ("end", stop.toSaved)]
  | hline start length => [("start", start.toSaved), ("length", .float length)]
  | vline start length => [("start", start.toSaved), ("length", .float length)]
  | rectangle start stop => [("start", start.toSaved), ("end", stop.toSaved)]
  | circle center radius => [("center", center.toSaved), ("radius", .float radius)]
  | arc center radius startAngle endAngle =>
    [("center", center.toSaved), ("radius", .float radius),
      ("start_angle", .float startAngle), ("end_angle", .float endAngle)]
  | spline points => [("points", .list (points.map Point.toSaved))]
  | foreign => []

/-- The saved form of an element. A foreign shape has none. -/
def Element.toSaved (e : Element Float) : Except Error Value :=
  match e.shape.kind? with
  | some kind => .ok (.object (("type", .text kind.tag) :: ("id", e.id) :: e.shape.fields))
  | none => .error .noAttributes

end Drafting
