import ScannedPage.Morphology.Smoothing
import ScannedPage.Page.Cancellation
import ScannedPage.Page.Compose
import ScannedPage.Page.Illumination
import ScannedPage.Raster.Scale
import ScannedPage.Threshold.Estimate

/-!
# From a page to its output

A page is resampled, evenly lit where that is wanted, searched for pictures, binarized, smoothed,
despeckled, composed from its layers and painted with the zones to be filled. Each step is a function
from the results of earlier steps to a traced result: the value, the images that show the step, and
the warnings it raised. The warnings travel with the output; the images do so only in debug mode, and
no step looks at the trace of another.
-/

namespace ScannedPage

/-- An image between two steps, with the warnings of the step that made it. -/
structure Snapshot where
  name : String
  image : Raster
  warnings : List PageWarning

/-- The finished page. -/
structure PageOutput where
  image : Raster
  /-- The rectangles around detected pictures, on mixed pages. -/
  pictureZones : List Rect
  despeckle : Region.DespeckleReport
  /-- The images between the steps, in debug mode. -/
  snapshots : List Snapshot
  warnings : List PageWarning

/-- The result of a step with what it has to show and to report. -/
structure Traced (α : Type) where
  value : α
  snapshots : List Snapshot
  warnings : List PageWarning

/-- The warning of a reconstruction that did not come to rest. -/
def convergenceWarnings (step : String) (converged : Bool) (iterations : Nat) : List PageWarning :=
  if converged then [] else [.convergence step iterations]

namespace PageSettings

/-- The page at the target resolution with the zones mapped along; without a target both stay. -/
def resample (s : PageSettings) (input : Raster) : Except PageError (Raster × List Zone) :=
  match s.targetResolution with
  | none => return (input, s.zones)
  | some target =>
    if target = input.resolution then return (input, s.zones)
    else do
      let scaled ← (input.scaleToResolution target).mapError .ofImage
      let sx := Float.ofNat scaled.width / Float.ofNat input.width
      let sy := Float.ofNat scaled.height / Float.ofNat input.height
      return (scaled, s.zones.map (·.scale sx sy))

/-- The image to deliver pictures from, and the gray image to work on. -/
structure WorkingCopies where
  base : Raster
  gray : Raster

/-- The working copies of a page: evenly lit both on request, and the gray one always on a mixed page. -/
def workingCopies (s : PageSettings) (source : Raster) : Except PageError (Traced WorkingCopies) := do
  let base := source.promote
  let plain : Snapshot := ⟨"grayscale", base.toGray, []⟩
  if s.normalizeIllumination then
    let base ← Illumination.equalize base
    return ⟨⟨base, base.toGray⟩, [plain, ⟨"equalized", base.toGray, []⟩], []⟩
  else if s.outputMode = .mixed then
    let gray ← Illumination.equalize base.toGray
    return ⟨⟨base, gray⟩, [plain, ⟨"equalized", gray, []⟩], []⟩
  else return ⟨⟨base, base.toGray⟩, [plain], []⟩

/-- The layers of a page and the rectangles found on it. -/
structure Pictures where
  layers : Layers
  rects : List Rect

/-- The pictures that detection finds on a mixed page, in the layers that are switched on. -/
def detectPictures (s : PageSettings) (gray : Raster) : Except PageError (Traced Pictures) := do
  let nothing := Layers.empty gray.size
  if s.mixed.autoLayer || s.mixed.pictureZonesLayer then
    let found ← (Region.pictureMask gray).mapError .region
    let warnings := convergenceWarnings "picture-mask" found.converged found.iterations
    let shown : Snapshot := ⟨"picture-mask", Raster.ofMask found.mask gray.resolution, warnings⟩
    let auto := if s.mixed.autoLayer then found.mask else nothing.auto
    if s.mixed.pictureZonesLayer then
      let rects ← (Region.detect found.mask s.pictureSensitivity).mapError .region
      let mask ← (Region.rectsToMask rects gray.width gray.height).mapError .region
      let boxes : Snapshot := ⟨"picture-zones", Raster.ofMask mask gray.resolution, []⟩
      return ⟨⟨⟨auto, mask, none⟩, rects⟩, [shown, boxes], warnings⟩
    else return ⟨⟨{ nothing with auto }, []⟩, [shown], warnings⟩
  else return ⟨⟨nothing, []⟩, [], []⟩

/-- The pictures of a page after the edits of zones; pages that are not mixed have none. -/
def pictures (s : PageSettings) (gray : Raster) (zones : List Zone) : Except PageError (Traced Pictures) := do
  if s.outputMode = .mixed then
    let found ← s.detectPictures gray
    let layers ← found.value.layers.applyZones zones
    return { found with value := { found.value with layers } }
  else return ⟨⟨Layers.empty gray.size, []⟩, [], []⟩

/-- The page with every pixel of an area white. -/
def clearArea (bilevel : Raster) (area : Option Mask) : Raster :=
  match area with
  | none => bilevel
  | some m =>
    Raster.ofFn bilevel.format bilevel.resolution bilevel.size fun x y =>
      if m.get x y then 0 else bilevel.word x y

/-- The mask of the text around a picture area; without any text there is no mask. -/
def textMask (area : Option Mask) : Option Mask := (area.map Mask.invert).filter fun m => !m.isEmpty

/-- The text of a page in black and white. The histogram leaves pictures out, pictures are white in the
result, and they stay white when the edges of the text are smoothed. -/
def binarizeText (s : PageSettings) (gray : Raster) (method : Threshold.Method Float) (area : Option Mask) :
    Except PageError (Traced Raster) := do
  let (raw, estimate) ← (Threshold.binarize gray method (textMask area)).mapError .threshold
  let warnings := convergenceWarnings "binarization" estimate.converged (estimate.iterations.getD 0)
  let bilevel := clearArea raw area
  let shown : Snapshot := ⟨"binarization", bilevel, warnings⟩
  if s.smoothEdges then
    let smooth ← (Morphology.smoothEdges bilevel).mapError .morphology
    let smooth := clearArea smooth area
    return ⟨smooth, [shown, ⟨"edges_smoothed", smooth, []⟩], warnings⟩
  else return ⟨bilevel, [shown], warnings⟩

/-- The text of a page in black and white, without specks, and the report on these. -/
structure CleanText where
  bilevel : Raster
  report : Region.DespeckleReport

/-- The text of a page without specks, under a method. -/
def cleanText (s : PageSettings) (gray : Raster) (method : Threshold.Method Float) (area : Option Mask) :
    Except PageError (Traced CleanText) := do
  let text ← s.binarizeText gray method area
  let (cleaned, report) ← (Region.despeckle text.value s.despeckle gray.resolution).mapError .region
  return ⟨⟨cleaned, report⟩, text.snapshots ++ [⟨"despeckled", cleaned, []⟩], text.warnings⟩

/-- The ink that shows the source: the clean text under the adjustment of the foreground. It is the text
already at hand if the adjustments agree; otherwise only its warnings are kept. -/
def foregroundInk (s : PageSettings) (gray : Raster) (area : Option Mask) (text : Raster) :
    Except PageError (Traced Raster) := do
  if s.foregroundAdjustment = s.threshold.adjustment then return ⟨text, [], []⟩
  else
    let own ← s.cleanText gray (s.threshold.withAdjustment s.foregroundAdjustment) area
    return ⟨own.value.bilevel, [], own.warnings⟩

/-- The layers with the foreground, after the zones have acted on it. -/
def foreground (s : PageSettings) (gray : Raster) (zones : List Zone) (layers : Layers) (area : Option Mask)
    (text : Raster) : Except PageError (Traced Layers) := do
  if s.outputMode = .mixed ∧ s.mixed.foregroundLayer then
    let ink ← s.foregroundInk gray area text
    let mask ← ink.value.toMask.mapError .ofImage
    let layers ← { layers with foreground := some mask }.applyZones zones
    let shown := layers.foreground.toList.map fun m => ⟨"foreground-mask", Raster.ofMask m gray.resolution, []⟩
    return ⟨layers, shown, ink.warnings⟩
  else return ⟨layers, [], []⟩

/-- The clean text of a page with the final layers. -/
structure Separation where
  bilevel : Option Raster
  report : Region.DespeckleReport
  layers : Layers

/-- Separates text from pictures, on pages that are binarized at all. -/
def separate (s : PageSettings) (gray : Raster) (zones : List Zone) (layers : Layers) :
    Except PageError (Traced Separation) := do
  if s.outputMode.binarizes then
    let area ← if s.outputMode = .mixed then some <$> layers.pictureArea else pure none
    let text ← s.cleanText gray s.threshold area
    let front ← s.foreground gray zones layers area text.value.bilevel
    return ⟨⟨some text.value.bilevel, text.value.report, front.value⟩, text.snapshots ++ front.snapshots,
      text.warnings ++ front.warnings⟩
  else return ⟨⟨none, .none, layers⟩, [], []⟩

/-- The output of a page under settings with every value in range. -/
def processNormalized (s : PageSettings) (input : Raster) : Except PageError PageOutput := do
  let (source, allZones) ← s.resample input
  let (zones, rejected) := Zone.sift allZones
  let copies ← s.workingCopies source
  let found ← s.pictures copies.value.gray zones
  let separated ← s.separate copies.value.gray zones found.value.layers
  let composed ← compose copies.value.base separated.value.bilevel separated.value.layers s.outputMode
  let snapshots := copies.snapshots ++ found.snapshots ++ separated.snapshots ++ [⟨"composited", composed, []⟩]
  return {
    image := fillZones composed zones
    pictureZones := found.value.rects
    despeckle := separated.value.report
    snapshots := if s.debug then snapshots else []
    warnings := rejected.map (fun (place, reason) => .invalidZone place reason) ++ found.warnings ++
      separated.warnings }

/-- The output of a page, unless the work was called off; settings out of range are brought back first. -/
def process (s : PageSettings) (input : Raster) (cancelled : Bool) : Except PageError PageOutput := do
  checkpoint cancelled
  s.normalized.processNormalized input

end PageSettings

end ScannedPage
