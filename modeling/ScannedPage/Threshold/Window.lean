import ScannedPage.Grid

/-!
# Windows of local statistics

A window is centred on a pixel and clipped to the image. A requested side is made odd, raised to at
least three pixels and lowered to the largest odd side that fits an axis; an axis of fewer than three
pixels gets a window of one.
-/

namespace ScannedPage.Threshold

/-- The sides of a window in pixels. -/
structure Window where
  width : Nat
  height : Nat
deriving DecidableEq, Repr

namespace Window

/-- The smallest side that may be asked for. -/
def minSide : Nat := 3

/-- The greatest odd number not above, and zero for zero. -/
def roundToOdd (n : Nat) : Nat := if n % 2 = 0 then n - 1 else n

/-- An odd side fitted to an axis. -/
def fitAxis (side extent : Nat) : Nat :=
  if extent < minSide then 1 else if extent < side then roundToOdd extent else side

/-- The window for a requested side in an image of the given sides. -/
def normalize (requested width height : Nat) : Window :=
  let side := max (roundToOdd requested) minSide
  ⟨fitAxis side width, fitAxis side height⟩

/-- The half-open interval that a window of a side covers around a centre, clipped to an axis. -/
def span (side centre extent : Nat) : Nat × Nat :=
  (centre - side / 2, min (centre + side - side / 2) extent)

end Window

end ScannedPage.Threshold
