import ScannedPage.Page.Layers
import ScannedPage.Page.Settings

/-!
# Composition of the delivered page

A page in colour or gray is the base image. A black and white page is the binarization. A mixed page
shows the base where some layer selects it, and elsewhere pure black or white as the binarization
says; a bilevel base counts as gray.
-/

namespace ScannedPage

/-- The base image in a format that can hold a picture: a bilevel page turns gray. -/
def Raster.promote (r : Raster) : Raster := if r.format = .bit1 then r.toGray else r

/-- The binarization that a mode needs, of the sides of the page. -/
def requireBilevel (expected : Nat × Nat) (bilevel : Option Raster) (mode : OutputMode) :
    Except PageError Raster :=
  match bilevel with
  | none => .error (.image (.invalidParameter (mode.tag ++ " output requires a binarization")))
  | some b =>
    if b.size.sides ≠ expected then .error (.dimensionMismatch "binarized image" expected b.size.sides)
    else (b.requireFormat .bit1).mapError .ofImage |>.map fun _ => b

/-- Some layer selects a position. -/
def Layers.selects (l : Layers) (x y : Nat) : Bool :=
  l.auto.get x y || l.pictures.get x y || (l.foreground.map (·.get x y)).getD false

/-- The base where some layer selects it, and the black or white of the binarization elsewhere. -/
def mixLayers (base bilevel : Raster) (l : Layers) : Raster :=
  Raster.ofFn base.format base.resolution base.size fun x y =>
    if l.selects x y then base.word x y
    else if bilevel.word x y != 0 then base.format.blackWord else base.format.whiteWord

/-- The delivered page of a mode, from its base, its binarization and its layers. -/
def compose (base : Raster) (bilevel : Option Raster) (l : Layers) (mode : OutputMode) :
    Except PageError Raster :=
  match mode with
  | .colorOrGrayscale => return base
  | .blackAndWhite => requireBilevel base.size.sides bilevel mode
  | .mixed => do
    let b ← requireBilevel base.size.sides bilevel mode
    l.checkSides base.size.sides
    return mixLayers base.promote b l

end ScannedPage
