import Drafting.Geometry.Element

/-!
One-line summaries of points and elements for people: coordinates and lengths with two places,
angles in degrees with one.
-/

namespace Drafting

open Decimal

/-- The summary of a point. -/
def Point.summary (p : Point Float) : String :=
  "P(" ++ fixed 2 p.x ++ ", " ++ fixed 2 p.y ++ ")"

/-- The summary of a shape. -/
def Shape.summary : Shape Float → String
  | line start stop => "Line(" ++ start.summary ++ " -> " ++ stop.summary ++ ")"
  | hline start length => "HLine(" ++ start.summary ++ ", len=" ++ fixed 2 length ++ ")"
  | vline start length => "VLine(" ++ start.summary ++ ", len=" ++ fixed 2 length ++ ")"
  | rectangle start stop =>
    "Rect(" ++ start.summary ++ ", " ++ fixed 2 (rectangleWidth start stop) ++ "x" ++
      fixed 2 (rectangleHeight start stop) ++ ")"
  | circle center radius => "Circle(center=" ++ center.summary ++ ", r=" ++ fixed 2 radius ++ ")"
  | arc center radius startAngle endAngle =>
    "Arc(center=" ++ center.summary ++ ", r=" ++ fixed 2 radius ++ ", " ++
      fixed 1 (Scalar.degrees startAngle) ++ "°-" ++ fixed 1 (Scalar.degrees endAngle) ++ "°)"
  | spline points => "Spline(" ++ toString points.length ++ " Kontrollpunkte)"
  | foreign => ""

end Drafting
