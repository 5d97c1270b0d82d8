import Drafting.Constraint.Duplicate
import Drafting.Constraint.Make
import Drafting.Graph.Extraction
import Drafting.Settings.Flags

/-!
Suggested constraints for an element that was just drawn: its points coincide with points of other
elements that are near, and a line that is nearly along an axis is put along it. Each suggestion
is described for people; some are described only.
-/

namespace Drafting

open Scalar

variable {α : Type} [Scalar α]

/-- A point of a new element that can be made to coincide with others. -/
structure Anchor (α : Type) where
  id : String
  position : Point α
  label : String
  /-- Whether a constraint is suggested, or the coincidence only described. -/
  emit : Bool

/-- Suggested constraints and descriptions of what was found. -/
structure Suggestions where
  constraints : List Constraint := []
  descriptions : List String := []

/-- Whether anything was found. -/
def Suggestions.any (s : Suggestions) : Bool := !s.constraints.isEmpty || !s.descriptions.isEmpty

namespace Suggestion

/-- The coordinates may differ by this much from each other. -/
def coincidenceTolerance : α := decimal 5 0

/-- The angle to an axis up to which a line is put along it. -/
def axisAngle : α := pi / decimal 36 0

/-- The least length of a line that is put along an axis. -/
def leastLength : α := decimal 10 0

/-- The anchors of an element. The corners of rectangles and the ends of splines give constraints
only if `indexed`. A foreign shape has no anchors to ask for. -/
def anchors (indexed : Bool) (e : Element α) : Except Error (List (Anchor α)) :=
  let anchor (role : Role) (index : Option Nat) (p : Point α) (label : String) (emit : Bool) :
      Anchor α := ⟨vertexName e.id role index, p, label, emit⟩
  match e.shape with
  | .line start stop =>
    .ok [anchor .start none start "start" true, anchor .stop none stop "end" true]
  | .hline start length =>
    .ok [anchor .start none start "hline start" true,
      anchor .stop none (hlineEnd start length) "hline end" true]
  | .vline start length =>
    .ok [anchor .start none start "vline start" true,
      anchor .stop none (vlineEnd start length) "vline end" true]
  | .arc center radius startAngle endAngle => do
    let start ← pointAtAngle center radius startAngle
    let stop ← pointAtAngle center radius endAngle
    return [anchor .start none start "arc start" true, anchor .stop none stop "arc end" true,
      anchor .center none center "arc center" true]
  | .circle center _ => .ok [anchor .center none center "circle center" true]
  | .rectangle start stop =>
    .ok ((rectangleCorners start stop).mapIdx fun i p =>
      anchor .corner (some i) p "rectangle corner" indexed)
  | .spline points =>
    match points.head?, points.getLast? with
    | some first, some last =>
      if 2 ≤ points.length then
        .ok [anchor .control (some 0) first "spline start" indexed,
          anchor .control (some (points.length - 1)) last "spline end" indexed]
      else .ok []
    | _, _ => .ok []
  | .foreign => .error .noAttributes

/-- Whether a vertex is near a point along both axes. -/
def near (p : Point α) (v : Vertex α) : Bool :=
  le (abs (p.x - v.x)) coincidenceTolerance && le (abs (p.y - v.y)) coincidenceTolerance

/-- Whether some constraint makes two points coincide. Names are compared only up to the first
constraint that does. -/
def hasPair (p q : Value) : List Constraint → Except Error Bool
  | [] => .ok false
  | c :: cs => do
    if c.kind == .coincident && c.points.length == 2 then
      if ← Constraint.sameNames c.points [p, q] then return true
    hasPair p q cs

/-- Whether some constraint puts exactly this line along an axis. -/
def hasAxis (line : String) (constraints : List Constraint) : Bool :=
  constraints.any fun c =>
    (c.kind == .horizontal || c.kind == .vertical) && c.lines == [.text line]

/-- Whether a line is long enough and nearly horizontal. -/
def nearlyHorizontal (start stop : Point α) : Bool :=
  let dx := stop.x - start.x
  let dy := stop.y - start.y
  if lt (hypot dx dy) leastLength then false
  else
    let angle := abs (atan2 dy dx)
    lt angle axisAngle || lt (abs (angle - pi)) axisAngle

/-- Whether a line is long enough and nearly vertical. -/
def nearlyVertical (start stop : Point α) : Bool :=
  let dx := stop.x - start.x
  let dy := stop.y - start.y
  if lt (hypot dx dy) leastLength then false
  else lt (abs (abs (atan2 dy dx) - pi / two)) axisAngle

/-- The word for a vertex in a description. -/
def vertexWord (v : Vertex α) : String :=
  v.role.word ++ (match v.index with | none => "" | some i => toString i)

/-- What was found so far with the coincidence of an anchor and a vertex. The new constraint gets
the next identifier after those that were issued. -/
def coincide (issued : Nat) (found : Suggestions) (a : Anchor α) (v : Vertex α) : Suggestions where
  constraints :=
    if a.emit then
      found.constraints ++
        [.coincidence (.issued (issued + found.constraints.length)) (.text a.id) v.id]
    else found.constraints
  descriptions := found.descriptions ++ ["Coincident: " ++ a.label ++ " to " ++ vertexWord v]

/-- What was found so far with what an anchor and a vertex add: their coincidence if they are near
each other and no constraint makes them coincide yet. -/
def consider (issued : Nat) (existing : List Constraint) (found : Suggestions) (a : Anchor α)
    (v : Vertex α) : Except Error Suggestions := do
  unless near a.position v do return found
  if ← hasPair (.text a.id) v.id (existing ++ found.constraints) then return found
  return coincide issued found a v

/-- What was found so far with the axis along which a line is put. -/
def considerAxis (issued : Nat) (existing : List Constraint) (found : Suggestions)
    (e : Element α) : Suggestions :=
  match e.shape with
  | .line start stop =>
    let id : Value := .issued (issued + found.constraints.length)
    if hasAxis (lineName e.id) existing then found
    else if nearlyHorizontal start stop then
      { constraints := found.constraints ++ [.horizontal id (.text (lineName e.id))]
        descriptions := found.descriptions ++ ["Horizontal"] }
    else if nearlyVertical start stop then
      { constraints := found.constraints ++ [.vertical id (.text (lineName e.id))]
        descriptions := found.descriptions ++ ["Vertical"] }
    else found
  | _ => found

/-- The suggestions for a new element among other elements and existing constraints, with
identifiers from `issued` on. -/
def detect (flags : Flags) (issued : Nat) (e : Element α) (others : List (Element α))
    (existing : List Constraint) : Except Error Suggestions :=
  if !flags.isEnabled (.text "auto_constraints") then .ok {}
  else do
    let graph ← Graph.ofElements others
    let vertices := graph.vertices.filter fun v => !(v.element == e.id)
    let anchors ← anchors (flags.isEnabled (.text "auto_constraints_indexed_points")) e
    let found ← anchors.foldlM
      (fun found a => vertices.foldlM (fun found v => consider issued existing found a v) found) {}
    return considerAxis issued existing found e

end Suggestion

end Drafting
