import ScannedPage.Threshold.Gatos
import ScannedPage.Threshold.Method
import ScannedPage.Threshold.Otsu

/-!
# Estimation of a threshold surface

A page and a method give a surface. Local methods fall back to the threshold of the histogram on a
page without local contrast; only the histogram is restricted to a mask, and so only there does the
size of the mask matter.
-/

namespace ScannedPage.Threshold

variable {K : Type} [Scalar K] [DecidableLE K] [DecidableLT K]

/-- The surface of one threshold, from the histogram under a mask. -/
@[specialize]
def globalEstimate (K : Type) [Scalar K] [DecidableLE K] [DecidableLT K] (gray : Raster) (mask : Option Mask)
    (adjustment : Int) : Except ThresholdError Estimate := do
  let h ← (Histogram.ofRaster gray mask).mapError .image
  return .direct (.global (adjust (otsu K h) adjustment))

/-- The darkest level of a gray page, within a byte. -/
def darkestLevel (gray : Raster) : Nat :=
  gray.words.foldl min (gray.word 0 0) % 256

/-- The surface of a gray page under a method whose parameters are in range. -/
@[specialize]
def estimateGray (gray : Raster) (method : Method K) (mask : Option Mask) :
    Except ThresholdError Estimate := do
  let windowOf (p : LocalParameters K) : Window := .normalize p.window gray.width gray.height
  match method with
  | .otsu adjustment => globalEstimate K gray mask adjustment
  | .sauvola p adjustment =>
    let stats : LocalStats K ← localStats gray (windowOf p) false
    if stats.maxDeviation ≤ ((0 : Nat) : K) then globalEstimate K gray mask adjustment
    else return .direct (.field (sauvolaField stats p.coefficient adjustment))
  | .wolf p adjustment lower upper =>
    let stats : LocalStats K ← localStats gray (windowOf p) false
    match wolfField? stats (darkestLevel gray) p.coefficient adjustment lower upper with
    | some field => return .direct (.field field)
    | none => globalEstimate K gray mask adjustment
  | .gatos p scale noise adjustment =>
    match ← gatos gray (windowOf p) p.coefficient scale noise adjustment with
    | some result => return ⟨.field result.field, result.converged, some result.iterations⟩
    | none => globalEstimate K gray mask adjustment

/-- The surface of a page of any format under a method; parameters out of range are reset first. -/
@[specialize]
def estimate (r : Raster) (method : Method K) (mask : Option Mask) : Except ThresholdError Estimate :=
  estimateGray r.toGray method.normalized mask

/-- The bilevel page under a method, and the estimate behind it. -/
@[specialize]
def binarize (r : Raster) (method : Method K) (mask : Option Mask) :
    Except ThresholdError (Raster × Estimate) := do
  let e ← estimate r method mask
  return (← e.surface.binarize r.toGray, e)

end ScannedPage.Threshold
