import ScannedPage.Mask
import ScannedPage.Zone.Basic

/-!
# The pixels that a zone covers

A pixel belongs to a zone when its centre does. Polygons follow the nonzero winding rule; an ellipse
holds the points whose coordinates along its own axes, in units of its radii, have a square sum of at
most one. Parts of a zone outside an image are cut off.
-/

namespace ScannedPage

/-- The radians of one degree. -/
def radiansPerDegree : Float := 3.141592653589793 / 180.0

/-- An ellipse prepared for a look at single pixels. -/
structure EllipseFrame where
  centre : Point Float
  rx : Float
  ry : Float
  sin : Float
  cos : Float
  /-- The half-open box of the pixels that can lie inside, from `(x0, y0)` to `(x1, y1)`. -/
  x0 : Nat
  y0 : Nat
  x1 : Nat
  y1 : Nat

namespace EllipseFrame

/-- The frame of an ellipse. -/
def ofEllipse (centre : Point Float) (rx ry angle : Float) : EllipseFrame :=
  let radians := angle * radiansPerDegree
  let sin := radians.sin
  let cos := radians.cos
  let square (a : Float) : Float := a * a
  let ex := (square (rx * cos) + square (ry * sin)).sqrt
  let ey := (square (rx * sin) + square (ry * cos)).sqrt
  let first (a : Float) : Nat := a.floor.toUInt32.toNat
  let last (a : Float) : Nat := a.ceil.toUInt32.toNat
  { centre, rx, ry, sin, cos,
    x0 := first (centre.x - ex - 0.5), y0 := first (centre.y - ey - 0.5),
    x1 := last (centre.x + ex + 0.5), y1 := last (centre.y + ey + 0.5) }

/-- The ellipse covers a pixel. -/
def covers (f : EllipseFrame) (x y : Nat) : Bool :=
  if 0.0 < f.rx ∧ 0.0 < f.ry ∧ f.x0 ≤ x ∧ x < f.x1 ∧ f.y0 ≤ y ∧ y < f.y1 then
    let dy := Float.ofNat y + 0.5 - f.centre.y
    let dx := Float.ofNat x + 0.5 - f.centre.x
    let u := (dx * f.cos + dy * f.sin) / f.rx
    let v := (-dx * f.sin + dy * f.cos) / f.ry
    decide (u * u + v * v ≤ 1.0)
  else false

end EllipseFrame

namespace Zone

/-- The mask of the pixels that a zone covers in an image of a size. -/
def coverage (z : Zone) (s : Size) : Mask :=
  match z.shape with
  | .polygon vertices =>
    let rows := Array.ofFn fun y : Fin s.height => Polygon.rowSpans vertices y.val
    Mask.ofFn s fun x y => (rows.getD y []).any fun (first, last) => decide (first ≤ x ∧ x < last)
  | .ellipse centre rx ry angle =>
    let frame := EllipseFrame.ofEllipse centre rx ry angle
    Mask.ofFn s frame.covers

/-- The coverage in an image of the given sides. -/
def rasterize (z : Zone) (width height : Nat) : Except ImageError Mask := do
  return z.coverage (← Size.ofSides width height)

/-- The mask with every covered pixel set to a value. -/
def paint (z : Zone) (m : Mask) (value : Bool) : Mask :=
  let area := z.coverage m.size
  Mask.ofFn m.size fun x y => if area.get x y then value else m.get x y

end Zone

end ScannedPage
