import ScannedPage.Decimal.Shortest
import ScannedPage.Zone.Polygon

/-!
# Zones

A zone is a polygon or an ellipse on a page, tagged with what it does there: it is filled with a
colour, or it adds to or takes from the picture areas. Zones are checked before use; an unusable one
is set aside with the reason, and the others keep their order.
-/

namespace ScannedPage

/-- The outline of a zone. -/
inductive ZoneShape
  | polygon (vertices : List (Point Float))
  /-- An ellipse with radii along its own axes, turned clockwise by an angle in degrees. -/
  | ellipse (centre : Point Float) (rx ry angle : Float)
deriving BEq

/-- What a zone does. -/
inductive ZoneTag
  /-- Paints its area with a colour. -/
  | fill
  /-- Adds its area to the detected pictures. -/
  | pictureAdd
  /-- Takes its area out of the detected pictures. -/
  | pictureSubtract
  /-- Takes its area out of every layer. -/
  | pictureSubtractAll
deriving DecidableEq, Repr

/-- A tagged outline, with the colour it is filled with. -/
structure Zone where
  shape : ZoneShape
  tag : ZoneTag
  /-- A colour word; white without one. -/
  fillColor : Option Nat
deriving BEq

/-- Why a zone is not usable. -/
inductive ZoneError
  | polygon (fault : Polygon.Fault)
  /-- An ellipse with an infinite parameter or one that is not a number. -/
  | nonFinite
  | nonPositiveRadius (rx ry : Float)

namespace ZoneError

/-- The text of a fault of a polygon. -/
def polygonMessage : Polygon.Fault → String
  | .tooFewVertices count => "polygon has " ++ toString count ++ " vertices, at least 3 are required"
  | .nonFinite => "non-finite coordinate"
  | .zeroArea => "polygon encloses no area"
  | .selfIntersecting first second =>
    "edges " ++ toString first ++ " and " ++ toString second ++ " cross each other"

/-- The line that reports the fault. -/
def message : ZoneError → String
  | polygon fault => polygonMessage fault
  | nonFinite => "non-finite coordinate"
  | nonPositiveRadius rx ry =>
    "ellipse radii must be positive: rx = " ++ Decimal.plain rx ++ ", ry = " ++ Decimal.plain ry

end ZoneError

namespace Zone

/-- A rectangle with sides along the axes, as a polygon. -/
def rect (x y w h : Float) (tag : ZoneTag) : Zone :=
  ⟨.polygon [⟨x, y⟩, ⟨x + w, y⟩, ⟨x + w, y + h⟩, ⟨x, y + h⟩], tag, none⟩

/-- The first fault of a zone, if it has any. -/
def fault? (z : Zone) : Option ZoneError :=
  match z.shape with
  | .polygon vertices => (Polygon.fault? vertices).map .polygon
  | .ellipse c rx ry angle =>
    if !([c.x, c.y, rx, ry, angle].all Float.isFinite) then some .nonFinite
    else if rx ≤ 0.0 ∨ ry ≤ 0.0 then some (.nonPositiveRadius rx ry)
    else none

/-- A point under independent factors for both axes. -/
def scalePoint (sx sy : Float) (p : Point Float) : Point Float := ⟨p.x * sx, p.y * sy⟩

/-- The zone in an image rescaled by factors; the radii of an ellipse follow its own axes. -/
def scale (z : Zone) (sx sy : Float) : Zone :=
  { z with shape := match z.shape with
    | .polygon vertices => .polygon (vertices.map (scalePoint sx sy))
    | .ellipse c rx ry angle => .ellipse (scalePoint sx sy c) (rx * sx) (ry * sy) angle }

/-- The usable zones in order, and the places and faults of the others in order. -/
def sift (zones : List Zone) : List Zone × List (Nat × ZoneError) :=
  (zones.filter fun z => z.fault?.isNone, zones.zipIdx.filterMap fun (z, i) => z.fault?.map fun e => (i, e))

end Zone

end ScannedPage
