import ScannedPage.Page.Error
import ScannedPage.Raster.Convert
import ScannedPage.Zone.Coverage

/-!
# Layers of a mixed page

Three masks decide where a mixed page keeps its source pixels: the detected pictures with the edits
of zones, the picture rectangles, and, if there is such a layer, the ink of the foreground. Zones act
in the order of their list, so the last one that covers a pixel decides.
-/

namespace ScannedPage

/-- The layers of one page. -/
structure Layers where
  /-- Detected pictures, with zones added and taken out. -/
  auto : Mask
  /-- Picture rectangles. -/
  pictures : Mask
  /-- Ink that shows the source, if there is a foreground layer. -/
  foreground : Option Mask

namespace Layers

/-- Layers that select nothing. -/
def empty (s : Size) : Layers := ⟨Mask.empty s, Mask.empty s, none⟩

/-- The size that all layers should have. -/
def size (l : Layers) : Size := l.auto.size

/-- What keeps the source as a picture: the detected pictures and the rectangles. -/
def pictureArea (l : Layers) : Except PageError Mask :=
  (Mask.or l.auto l.pictures).mapError fun _ =>
    .dimensionMismatch "picture zones mask" l.auto.size.sides l.pictures.size.sides

/-- Accepts a layer of the expected sides only. -/
def checkLayer (role : String) (m : Mask) (expected : Nat × Nat) : Except PageError Unit :=
  if m.size.sides = expected then .ok () else .error (.dimensionMismatch role expected m.size.sides)

/-- Accepts layers of the expected sides only, and blames the first that differs. -/
def checkSides (l : Layers) (expected : Nat × Nat) : Except PageError Unit := do
  checkLayer "auto layer mask" l.auto expected
  checkLayer "picture zones mask" l.pictures expected
  match l.foreground with
  | none => return
  | some m => checkLayer "foreground mask" m expected

/-- A mask without the pixels of an area. -/
def without (m area : Mask) : Mask := Mask.ofFn m.size fun x y => m.get x y && !area.get x y

/-- The effect of one zone; a zone to be filled has none here. -/
def applyZone (l : Layers) (z : Zone) : Layers :=
  match z.tag with
  | .fill => l
  | .pictureAdd => { l with auto := z.paint l.auto true }
  | .pictureSubtract => { l with auto := z.paint l.auto false }
  | .pictureSubtractAll =>
    let area := z.coverage l.size
    ⟨without l.auto area, without l.pictures area, l.foreground.map (without · area)⟩

/-- The effect of all zones in order; refused when the layers differ in size. -/
def applyZones (l : Layers) (zones : List Zone) : Except PageError Layers := do
  l.checkSides l.size.sides
  return zones.foldl applyZone l

end Layers

/-- The word that a fill colour becomes in a format: black or white by its luminance, its luminance, or
itself. -/
def fillWord (format : PixelFormat) (color : Nat) : Nat :=
  match format with
  | .bit1 => if Color.luminance color < 128 then 1 else 0
  | .gray8 => Color.luminance color
  | .rgb32 => Color.solid color

/-- Paints one zone into a page. -/
def fillZone (r : Raster) (z : Zone) : Raster :=
  let area := z.coverage r.size
  let word := fillWord r.format (z.fillColor.getD Color.white)
  Raster.ofFn r.format r.resolution r.size fun x y => if area.get x y then word else r.word x y

/-- Paints the zones to be filled, in order. -/
def fillZones (r : Raster) (zones : List Zone) : Raster :=
  (zones.filter (·.tag = .fill)).foldl fillZone r

end ScannedPage
