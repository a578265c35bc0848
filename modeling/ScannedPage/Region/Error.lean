import ScannedPage.Morphology.Error
import ScannedPage.Raster.Convert

/-!
# Faults of region analysis

Why labelling, despeckling or picture detection was refused.
-/

namespace ScannedPage

/-- A cause for refusing an analysis of regions. -/
inductive RegionError
  /-- A refused image operation. -/
  | image (cause : ImageError)
  /-- A refused morphological operation. -/
  | morphology (cause : MorphologyError)
  /-- The operation needs another pixel format. -/
  | unsupportedFormat (expected actual : PixelFormat)
  /-- A sensitivity above one hundred percent. -/
  | sensitivity (percent : Nat)
deriving DecidableEq, Repr

namespace RegionError

/-- The line that reports the fault. -/
def message : RegionError → String
  | image cause => "core error: " ++ cause.message
  | morphology cause => "morphology error: " ++ cause.message
  | unsupportedFormat expected actual =>
    "unsupported format: expected " ++ expected.name ++ ", got " ++ actual.name
  | sensitivity percent => "invalid parameters: sensitivity must be in 0..=100, got " ++ toString percent

end RegionError

namespace Region

/-- Accepts rasters of the given format only. -/
def require (format : PixelFormat) (r : Raster) : Except RegionError Unit :=
  if r.format = format then .ok () else .error (.unsupportedFormat format r.format)

end Region

end ScannedPage
