import ScannedPage.Threshold.Error

/-!
# Threshold surfaces

A surface gives every pixel a threshold: one for the whole page, or a field with one value per pixel
and two hard bounds. A pixel is black when it is darker than the lower bound, or when it is not
brighter than the upper bound and darker than its threshold.
-/

namespace ScannedPage.Threshold

/-- One threshold per pixel in row-major order, which may lie outside the range of levels, and bounds. -/
structure Field where
  width : Nat
  height : Nat
  values : Array Int
  lower : Nat
  upper : Nat
deriving DecidableEq, Repr

namespace Field

/-- A field without effective bounds. -/
def ofValues (width height : Nat) (values : Array Int) : Field := ⟨width, height, values, 0, 255⟩

/-- The field of a function of the position. -/
@[inline]
def ofGrid (g : Grid Int) : Field := ofValues g.size.width g.size.height g.cells

/-- The threshold at a position; there may be none, outside or where values are missing. -/
def at? (f : Field) (x y : Nat) : Option Int :=
  if x < f.width ∧ y < f.height then f.values[y * f.width + x]? else none

/-- The level is black under a threshold of the field. -/
def isBlack (f : Field) (level : Nat) (threshold : Int) : Bool :=
  decide ((level : Int) < f.lower ∨ ((level : Int) ≤ f.upper ∧ (level : Int) < threshold))

end Field

/-- A threshold for every pixel of a page. -/
inductive Surface
  | global (threshold : Nat)
  | field (field : Field)
deriving DecidableEq, Repr

namespace Surface

/-- The threshold at a position. -/
def at? : Surface → Nat → Nat → Option Int
  | global t, _, _ => some t
  | field f, x, y => f.at? x y

/-- The level at a position is black. -/
def isBlack (s : Surface) (x y level : Nat) : Bool :=
  match s with
  | global t => decide (level < t)
  | field f => ((f.at? x y).map (f.isBlack level)).getD false

/-- The bilevel page that a surface makes of a gray page of its size. -/
def binarize (s : Surface) (r : Raster) : Except ThresholdError Raster := do
  requireGray r
  match s with
  | global _ => pure ()
  | field f => (r.checkSides (f.width, f.height)).mapError .image
  return Raster.ofFn .bit1 r.resolution r.size fun x y => if s.isBlack x y (r.word x y) then 1 else 0

end Surface

/-- A surface, and how the iteration behind it ended if there was one. -/
structure Estimate where
  surface : Surface
  converged : Bool
  iterations : Option Nat
deriving DecidableEq, Repr

/-- An estimate without an iteration. -/
def Estimate.direct (surface : Surface) : Estimate := ⟨surface, true, none⟩

end ScannedPage.Threshold
