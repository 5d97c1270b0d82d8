import Drafting.Geometry.Element

/-!
The constraint graph of a drawing: points, straight edges between points, and circles around
points, each with a name. Any value can be a name; in the graph of a drawing names are texts made
from the identifiers of the elements. The graph lives for one solve.
-/

namespace Drafting

/-- What a vertex is within its element. -/
inductive Role where
  | start
  | stop
  | center
  | corner
  | control
  deriving DecidableEq, Repr

namespace Role

/-- Every role, in the order of declaration. -/
def all : List Role := [start, stop, center, corner, control]

/-- The word for a role in names. -/
def word : Role → String
  | start => "start"
  | stop => "end"
  | center => "center"
  | corner => "corner"
  | control => "control"

/-- The role with a word. -/
def ofWord? (s : String) : Option Role := all.find? (·.word == s)

theorem ofWord?_word (r : Role) : ofWord? r.word = some r := by
  cases r <;> decide

end Role

/-- The name of a vertex: element, role, and number where a role occurs more than once. -/
def vertexName (element : Value) (role : Role) (index : Option Nat) : String :=
  element.plain ++ "_" ++ role.word ++ (match index with | none => "" | some i => toString i)

/-- The name of the edge of a line. -/
def lineName (element : Value) : String := element.plain ++ "_line"

/-- The name of an edge of a rectangle. -/
def edgeName (element : Value) (k : Nat) : String := element.plain ++ "_edge" ++ toString k

/-- The name of a circle. -/
def ringName (element : Value) : String := element.plain ++ "_circle"

/-- A point of the graph. Its coordinates are variables of the solver unless it is fixed. -/
structure Vertex (α : Type) where
  id : Value
  x : α
  y : α
  fixed : Value := .bool false
  element : Value := .text ""
  role : Role := .start
  index : Option Nat := none

/-- A straight edge between two points, by name. -/
structure Edge where
  id : Value
  p1 : Value
  p2 : Value

/-- A circle around a point, by name. Its radius is a variable of the solver. -/
structure Ring (α : Type) where
  id : Value
  center : Value
  radius : α

/-- The points, edges and circles of a drawing, in the order in which they were met. -/
structure Graph (α : Type) where
  vertices : List (Vertex α) := []
  edges : List Edge := []
  rings : List (Ring α) := []

namespace Graph

variable {α : Type}

/-- A vertex is added unless its name is taken: the first registration wins. -/
def register (vs : List (Vertex α)) (v : Vertex α) : List (Vertex α) :=
  if vs.any (·.id == v.id) then vs else vs ++ [v]

/-- The graph of two parts, the first of which has the older names. -/
def merge (g h : Graph α) : Graph α where
  vertices := h.vertices.foldl register g.vertices
  edges := g.edges ++ h.edges
  rings := g.rings ++ h.rings

/-- The first vertex with a name. -/
def vertex? (g : Graph α) (id : Value) : Option (Vertex α) := g.vertices.find? (·.id == id)

/-- The first edge with a name. -/
def edge? (g : Graph α) (id : Value) : Option Edge := g.edges.find? (·.id == id)

/-- The first circle with a name. -/
def ring? (g : Graph α) (id : Value) : Option (Ring α) := g.rings.find? (·.id == id)

/-- The first vertex with a name, which must exist. -/
def vertex (g : Graph α) (id : Value) : Except Error (Vertex α) :=
  match g.vertex? id with
  | some v => .ok v
  | none => .error (.dangling .point id "")

/-- The first edge with a name, which must exist. -/
def edge (g : Graph α) (id : Value) : Except Error Edge :=
  match g.edge? id with
  | some e => .ok e
  | none => .error (.dangling .line id "")

/-- The first circle with a name, which must exist. -/
def ring (g : Graph α) (id : Value) : Except Error (Ring α) :=
  match g.ring? id with
  | some r => .ok r
  | none => .error (.dangling .circle id "")

/-- The vertices of an element. -/
def verticesOf (g : Graph α) (element : Value) : List (Vertex α) :=
  g.vertices.filter (·.element == element)

/-- The names of all parts. -/
def names (g : Graph α) : List Value :=
  g.vertices.map (·.id) ++ g.edges.map (·.id) ++ g.rings.map (·.id)

end Graph

end Drafting
