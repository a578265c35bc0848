import ScannedPage.Raster.Basic

/-!
# Faults of morphology

Why a morphological operation was refused.
-/

namespace ScannedPage

/-- A cause for refusing a morphological operation. -/
inductive MorphologyError
  /-- A refused image operation. -/
  | image (cause : ImageError)
  /-- The operation needs another pixel format. -/
  | unsupportedFormat (expected actual : PixelFormat)
  /-- A window without any pixel. -/
  | emptyWindow (width height : Nat)
  /-- A reconstruction that may not even start. -/
  | noIterations
deriving DecidableEq, Repr

namespace MorphologyError

/-- The line that reports the fault. -/
def message : MorphologyError → String
  | image cause => "core error: " ++ cause.message
  | unsupportedFormat expected actual =>
    "unsupported format: expected " ++ expected.name ++ ", got " ++ actual.name
  | emptyWindow w h =>
    "invalid parameters: window must be at least 1x1, got " ++ toString w ++ "x" ++ toString h
  | noIterations => "invalid parameters: max_iterations must be at least 1"

end MorphologyError

namespace Morphology

/-- Accepts rasters of the given format only. -/
def require (format : PixelFormat) (r : Raster) : Except MorphologyError Unit :=
  if r.format = format then .ok () else .error (.unsupportedFormat format r.format)

end Morphology

end ScannedPage
