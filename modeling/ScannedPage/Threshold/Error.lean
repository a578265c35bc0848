import ScannedPage.Morphology.Error

/-!
# Faults of threshold estimation

Why a threshold could not be estimated or applied.
-/

namespace ScannedPage

/-- A cause for refusing a threshold operation. -/
inductive ThresholdError
  /-- A refused image operation. -/
  | image (cause : ImageError)
  /-- A refused morphological operation. -/
  | morphology (cause : MorphologyError)
  /-- The operation needs another pixel format. -/
  | unsupportedFormat (expected actual : PixelFormat)
deriving DecidableEq, Repr

namespace ThresholdError

/-- The line that reports the fault. -/
def message : ThresholdError → String
  | image cause => "core error: " ++ cause.message
  | morphology cause => "morphology error: " ++ cause.message
  | unsupportedFormat expected actual =>
    "unsupported format: expected " ++ expected.name ++ ", got " ++ actual.name

end ThresholdError

namespace Threshold

/-- Accepts gray rasters only. -/
def requireGray (r : Raster) : Except ThresholdError Unit :=
  if r.format = .gray8 then .ok () else .error (.unsupportedFormat .gray8 r.format)

end Threshold

end ScannedPage
