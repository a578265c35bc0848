import ScannedPage.Resolution

/-!
# Faults of image operations

Why an operation on a raster, a mask or a rectangle was refused, and the one line that says so.
-/

namespace ScannedPage

/-- A cause for refusing an image operation. -/
inductive ImageError
  /-- A side of the requested image has no pixel. -/
  | invalidDimension (width height : Nat)
  /-- Two extents that have to agree do not. -/
  | dimensionMismatch (expected actual : Nat × Nat)
  /-- The operation needs another pixel format. -/
  | unsupportedFormat (needed : String)
  /-- A place beyond the data. -/
  | indexOutOfBounds (index length : Nat)
  /-- The number of samples does not fit the extent. -/
  | bufferLength (expected actual : Nat)
  /-- A parameter outside its range, with the reason. -/
  | invalidParameter (reason : String)
deriving DecidableEq, Repr

namespace ImageError

/-- The line that reports the fault. -/
def message : ImageError → String
  | invalidDimension w h => "invalid image dimensions: " ++ toString w ++ "x" ++ toString h
  | dimensionMismatch e a =>
    "dimension mismatch: expected " ++ toString e.1 ++ "x" ++ toString e.2 ++
      ", got " ++ toString a.1 ++ "x" ++ toString a.2
  | unsupportedFormat needed => "unsupported pixel format: " ++ needed
  | indexOutOfBounds index length => "index out of bounds: " ++ toString index ++ " >= " ++ toString length
  | bufferLength e a =>
    "buffer length mismatch: expected " ++ toString e ++ " samples, got " ++ toString a
  | invalidParameter reason => "invalid parameter: " ++ reason

/-- A rectangle with a negative side. -/
def negativeSides (w h : Int) : ImageError :=
  invalidParameter ("rect dimensions must be non-negative: w=" ++ toString w ++ ", h=" ++ toString h)

/-- A resolution without dots on some axis. -/
def zeroResolution (source target : Resolution) : ImageError :=
  invalidParameter
    ("resolution must be non-zero: source " ++ source.describe ++ ", target " ++ target.describe)

end ImageError

end ScannedPage
