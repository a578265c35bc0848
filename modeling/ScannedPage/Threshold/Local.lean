import ScannedPage.Threshold.LocalStats
import ScannedPage.Threshold.Surface

/-!
# Thresholds from local statistics

Three rules turn the mean `m` and the deviation `s` around a pixel into its threshold. Niblack takes
`m - k s`; Sauvola takes `m (1 + k (s / 128 - 1))`; Wolf takes `m - k (1 - s / S) (m - d)`, where `S`
is the greatest deviation and `d` the darkest level of the page. The value is moved into the range of
levels and loses its fraction before the adjustment is added.
-/

namespace ScannedPage.Threshold

open Scalar

variable {K : Type} [Scalar K] [DecidableLE K] [DecidableLT K]

/-- The field of a rule on the moments, with an adjustment added to every threshold, as a whole number without a
bound: adjustments with which a sum of 32 bits overflows are excluded. -/
@[inline]
def fieldOf (stats : LocalStats K) (adjustment : Int) (rule : Moments K → K) : Field :=
  Field.ofGrid (stats.map fun c => (toLevel (rule c) : Int) + adjustment)

/-- The Niblack rule. -/
@[inline]
def niblackRule (k : K) (c : Moments K) : K := c.mean - k * c.deviation

/-- The Sauvola rule. -/
@[inline]
def sauvolaRule (k : K) (c : Moments K) : K :=
  c.mean * (((1 : Nat) : K) + k * (c.deviation / ((128 : Nat) : K) - ((1 : Nat) : K)))

/-- The Wolf rule for a page with the given greatest deviation and darkest level. -/
@[inline]
def wolfRule (k maxDeviation darkest : K) (c : Moments K) : K :=
  let a := ((1 : Nat) : K) - c.deviation / maxDeviation
  c.mean - k * a * (c.mean - darkest)

/-- The Niblack field of a gray page. -/
@[specialize]
def niblackField (r : Raster) (window : Window) (k : K) (adjustment : Int) : Except ThresholdError Field := do
  let stats : LocalStats K ← localStats r window false
  return fieldOf stats adjustment (niblackRule k)

/-- The Sauvola field of local statistics. -/
@[specialize]
def sauvolaField (stats : LocalStats K) (k : K) (adjustment : Int) : Field :=
  fieldOf stats adjustment (sauvolaRule k)

/-- The Wolf field of local statistics with its bounds; a page without any deviation has none. -/
@[specialize]
def wolfField? (stats : LocalStats K) (darkest : Nat) (k : K) (adjustment : Int) (lower upper : Nat) :
    Option Field :=
  let maxDeviation := stats.maxDeviation
  if maxDeviation ≤ ((0 : Nat) : K) then none
  else some { fieldOf stats adjustment (wolfRule k maxDeviation ((darkest : Nat) : K)) with lower, upper }

end ScannedPage.Threshold
