import ScannedPage.Scalar
import ScannedPage.Raster.Convert
import ScannedPage.Raster.Histogram
import ScannedPage.Decimal.Shortest

/-!
# Contrast stretch

The darkest and the brightest share of the pixels of a gray page saturate, and the levels between
spread over the whole range. The two cut levels come from whole pixel counts, so only the counts
and the new levels depend on the arithmetic.
-/

namespace ScannedPage

namespace Histogram

/-- The first level at or below which more than `allowed` pixels lie, from the dark end; zero if there is
none. -/
def darkCut (h : Histogram) (allowed : Nat) : Nat :=
  go 256 0 0
where
  /-- The search from a level on, after `seen` pixels; `fuel` levels are left. -/
  go : Nat → Nat → Nat → Nat
    | 0, _, _ => 0
    | fuel + 1, level, seen =>
      if allowed < seen + h.count level then level else go fuel (level + 1) (seen + h.count level)

/-- The last level at or above which more than `allowed` pixels lie, from the bright end; 255 if there is
none. -/
def brightCut (h : Histogram) (allowed : Nat) : Nat :=
  go 256 0
where
  /-- The search below a level, after `seen` pixels. -/
  go : Nat → Nat → Nat
    | 0, _ => 255
    | level + 1, seen =>
      if allowed < seen + h.count level then level else go level (seen + h.count level)

end Histogram

namespace Contrast

open Scalar

variable {K : Type} [Scalar K] [DecidableLE K] [DecidableLT K]

/-- The number of pixels that a share of all pixels allows to saturate. -/
@[specialize]
def allowance (total : Nat) (share : K) : Nat := floorNat ((total : K) * share)

/-- Both cut levels for the shares of dark and bright pixels that saturate. -/
@[specialize]
def cuts (h : Histogram) (black white : K) : Nat × Nat :=
  (h.darkCut (allowance h.total black), h.brightCut (allowance h.total white))

/-- The new level of a pixel when `low` goes to 0 and `high` goes to 255. -/
@[specialize]
def level (K : Type) [Scalar K] [DecidableLE K] [DecidableLT K] (low high v : Nat) : Nat :=
  toLevel (round (((v : K) - (low : K)) * ((255 : Nat) : K) / ((high - low : Nat) : K)))

/-- A share that may saturate: at least nothing and less than half. -/
@[specialize]
def isShare (share : K) : Bool :=
  decide (((0 : Nat) : K) ≤ share) && decide (share < ((1 : Nat) : K) / ((2 : Nat) : K))

/-- The stretched page; a page whose cut levels meet or cross stays as it is. -/
@[specialize]
def apply (r : Raster) (h : Histogram) (black white : K) : Raster :=
  let (low, high) := cuts h black white
  if high ≤ low then r else r.mapWords .gray8 (level K low high)

end Contrast

/-- Stretches a gray page so that the given shares of dark and bright pixels saturate. -/
def Raster.stretch (r : Raster) (black white : Float) : Except ImageError Raster := do
  r.requireFormat .gray8
  if Contrast.isShare black && Contrast.isShare white then
    let h ← Histogram.ofRaster r none
    return Contrast.apply r h black white
  else
    throw (.invalidParameter
      ("stretch fractions must be in [0, 0.5): " ++ Decimal.plain black ++ ", " ++ Decimal.plain white))

end ScannedPage
