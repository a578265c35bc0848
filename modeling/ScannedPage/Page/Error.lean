import ScannedPage.Region.Error
import ScannedPage.Threshold.Error
import ScannedPage.Zone.Basic

/-!
# Faults and warnings of a page

A fault ends the work on one page. A warning travels with the finished page: a reconstruction that
was cut off, or a zone that was set aside.
-/

namespace ScannedPage

/-- A cause for giving up a page. -/
inductive PageError
  /-- An image or a mask that does not fit the page, by its role. -/
  | dimensionMismatch (role : String) (expected actual : Nat × Nat)
  | cancelled
  /-- Settings that could not be read, with the reason. -/
  | settings (reason : String)
  /-- A file that could not be read or written, with the reason. -/
  | file (reason : String)
  | image (cause : ImageError)
  | morphology (cause : MorphologyError)
  | threshold (cause : ThresholdError)
  | region (cause : RegionError)
deriving DecidableEq, Repr

namespace PageError

/-- The line that reports the fault. -/
def message : PageError → String
  | dimensionMismatch role e a =>
    "dimension mismatch for " ++ role ++ ": expected " ++ toString e.1 ++ "x" ++ toString e.2 ++
      ", got " ++ toString a.1 ++ "x" ++ toString a.2
  | cancelled => "processing cancelled"
  | settings reason => "settings error: " ++ reason
  | file reason => "io error: " ++ reason
  | image cause => "core error: " ++ cause.message
  | morphology cause => "morphology error: " ++ cause.message
  | threshold cause => "threshold error: " ++ cause.message
  | region cause => "region error: " ++ cause.message

/-- A refused image operation as a fault of the page; sides that differ are those of an image. -/
def ofImage : ImageError → PageError
  | .dimensionMismatch expected actual => dimensionMismatch "image" expected actual
  | cause => image cause

end PageError

/-- A condition reported with a finished page. -/
inductive PageWarning
  /-- A reconstruction of the named step ended at its cap. -/
  | convergence (step : String) (iterations : Nat)
  /-- The zone at a place of the settings was set aside. -/
  | invalidZone (place : Nat) (reason : ZoneError)

/-- The line that reports the condition. -/
def PageWarning.message : PageWarning → String
  | convergence step iterations =>
    step ++ ": reconstruction stopped after " ++ toString iterations ++ " iterations without converging"
  | invalidZone place reason => "zone " ++ toString place ++ " rejected: " ++ reason.message

end ScannedPage
