import ScannedPage.Region.Despeckle
import ScannedPage.Region.Picture
import ScannedPage.Threshold.Method
import ScannedPage.Zone.Basic

/-!
# Settings of a page

One record determines what becomes of a page. Every field has a default, and values out of range are
brought back before the record is used.
-/

namespace ScannedPage

/-- What is delivered of a page. -/
inductive OutputMode
  /-- Black and white only; pictures are not looked for. -/
  | blackAndWhite
  /-- The source, evenly lit if asked for. -/
  | colorOrGrayscale
  /-- Black and white text with the source kept in pictures. -/
  | mixed
deriving DecidableEq, Repr

namespace OutputMode

/-- The mode makes a bilevel page on the way. -/
def binarizes : OutputMode → Bool
  | blackAndWhite => true
  | colorOrGrayscale => false
  | mixed => true

/-- The name of the mode in messages. -/
def tag : OutputMode → String
  | blackAndWhite => "BlackAndWhite"
  | colorOrGrayscale => "ColorOrGrayscale"
  | mixed => "Mixed"

end OutputMode

/-- Which layers a mixed page has. -/
structure MixedOptions where
  /-- Keep detected pictures. -/
  autoLayer : Bool := true
  /-- Keep rectangles around detected pictures. -/
  pictureZonesLayer : Bool := true
  /-- Show the source under the ink of a binarization of its own. -/
  foregroundLayer : Bool := false
deriving DecidableEq, Repr

/-- Everything that determines the output of one page. -/
structure PageSettings where
  outputMode : OutputMode := .blackAndWhite
  threshold : Threshold.Method Float := .otsu 0
  despeckle : DespecklePolicy := .normal
  zones : List Zone := []
  /-- The resolution to resample to, if any. -/
  targetResolution : Option Resolution := none
  /-- How much of the mask a picture rectangle has to keep, in percent. -/
  pictureSensitivity : Nat := Region.fullSensitivity
  /-- Deliver an evenly lit image; mixed pages look for pictures and text on one either way. -/
  normalizeIllumination : Bool := false
  smoothEdges : Bool := true
  mixed : MixedOptions := {}
  /-- The threshold adjustment of the foreground layer. -/
  foregroundAdjustment : Int := 0
  /-- Collect the images between the steps. -/
  debug : Bool := false
deriving BEq

namespace PageSettings

/-- The settings with every value in range; a target without dots on some axis is dropped. -/
def normalized (s : PageSettings) : PageSettings :=
  { s with
    threshold := s.threshold.normalized
    pictureSensitivity := min s.pictureSensitivity Region.fullSensitivity
    targetResolution := s.targetResolution.filter Resolution.valid }

end PageSettings

end ScannedPage
