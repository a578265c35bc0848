import ScannedPage.ImageError

/-!
# Rectangles

A rectangle has a corner and two side lengths, all of them whole and possibly negative. Its right
and bottom edges are exclusive, so it holds the points of a half-open box (`contains_iff`).
-/

namespace ScannedPage

/-- The half-open box from `(x, y)` to `(x + w, y + h)`. -/
structure Rect where
  x : Int
  y : Int
  w : Int
  h : Int
deriving DecidableEq, Repr, Inhabited

namespace Rect

/-- A rectangle whose sides must not be negative. -/
def ofSides (x y w h : Int) : Except ImageError Rect :=
  if w < 0 ∨ h < 0 then .error (.negativeSides w h) else .ok ⟨x, y, w, h⟩

/-- The rectangle between two corners that both belong to it. -/
def ofInclusive (left top right bottom : Int) : Rect := ⟨left, top, right - left + 1, bottom - top + 1⟩

/-- The rectangle of one pixel. -/
def pixel (x y : Nat) : Rect := ⟨x, y, 1, 1⟩

/-- The first column beyond the rectangle. -/
def right (r : Rect) : Int := r.x + r.w

/-- The first row beyond the rectangle. -/
def bottom (r : Rect) : Int := r.y + r.h

/-- The product of the sides. -/
def area (r : Rect) : Int := r.w * r.h

/-- The shorter side. -/
def minDimension (r : Rect) : Int := min r.w r.h

/-- Some side has no length. -/
def isEmpty (r : Rect) : Bool := decide (r.w ≤ 0 ∨ r.h ≤ 0)

/-- The point lies in the box. -/
def contains (r : Rect) (x y : Int) : Bool := decide (r.x ≤ x ∧ x < r.right ∧ r.y ≤ y ∧ y < r.bottom)

/-- A rectangle contains the positions between its edges. -/
theorem contains_iff {r : Rect} {x y : Int} :
    r.contains x y = true ↔ r.x ≤ x ∧ x < r.x + r.w ∧ r.y ≤ y ∧ y < r.y + r.h :=
  decide_eq_true_iff

/-- The common part of two rectangles, if it has any point. -/
def intersect (a b : Rect) : Option Rect :=
  let x := max a.x b.x
  let y := max a.y b.y
  let right := min a.right b.right
  let bottom := min a.bottom b.bottom
  if x < right ∧ y < bottom then some ⟨x, y, right - x, bottom - y⟩ else none

/-- The smallest rectangle around two rectangles. -/
def union (a b : Rect) : Rect :=
  let x := min a.x b.x
  let y := min a.y b.y
  ⟨x, y, max a.right b.right - x, max a.bottom b.bottom - y⟩

/-- The rectangle under independent factors for both axes, with edges rounded outward to whole pixels. -/
def scale (r : Rect) (sx sy : Float) : Rect :=
  let left := (Float.ofInt r.x * sx).floor.toInt32.toInt
  let top := (Float.ofInt r.y * sy).floor.toInt32.toInt
  let right := (Float.ofInt r.right * sx).ceil.toInt32.toInt
  let bottom := (Float.ofInt r.bottom * sy).ceil.toInt32.toInt
  ⟨left, top, right - left, bottom - top⟩

end Rect

end ScannedPage
