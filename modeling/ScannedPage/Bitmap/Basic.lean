import ScannedPage.Raster.Convert

/-!
# Pictures as files hold them

A bitmap has samples of 8 or 16 bits, row by row, with the channels of a pixel side by side, and knows no
resolution. Reading one as a page reduces samples to 8 bits and drops opacity; gray stays gray and
everything else becomes colour. Writing a page gives 8-bit gray or colour.
-/

namespace ScannedPage

/-- The channels of a pixel. -/
inductive ColorModel
  | gray
  | grayAlpha
  | rgb
  | rgba
deriving DecidableEq, Repr

namespace ColorModel

/-- The number of channels. -/
def channels : ColorModel → Nat
  | gray => 1
  | grayAlpha => 2
  | rgb => 3
  | rgba => 4

/-- The number of channels without opacity. -/
def opaqueChannels : ColorModel → Nat
  | gray | grayAlpha => 1
  | rgb | rgba => 3

end ColorModel

/-- Samples with their layout; a side may have no pixel. -/
structure Bitmap where
  model : ColorModel
  /-- Samples have 16 bits instead of 8. -/
  deep : Bool
  width : Nat
  height : Nat
  samples : Array Nat
deriving DecidableEq, Repr

namespace Bitmap

/-- A sample of 16 bits in 8 bits; halves go up. -/
def reduceDeep (v : Nat) : Nat := (v + 128) / 257

/-- The samples in 8 bits and without opacity. -/
def levels (b : Bitmap) : Array Nat :=
  let own := b.model.channels
  let kept := b.model.opaqueChannels
  let level (v : Nat) := if b.deep then reduceDeep v else v
  if own = kept then b.samples.map level
  else Array.ofFn fun i : Fin (b.width * b.height * kept) =>
    level (b.samples.getD (i.val / kept * own + i.val % kept) 0)

/-- The page that a bitmap shows, at the standard resolution. -/
def toRaster (b : Bitmap) : Except ImageError Raster :=
  match b.model with
  | .gray | .grayAlpha => Raster.ofGrayBytes b.width b.height b.levels
  | .rgb | .rgba => Raster.ofRgbBytes b.width b.height b.levels

/-- The three channels of a colour word. -/
def channelLevels (word : Nat) : List Nat := [Color.red word, Color.green word, Color.blue word]

/-- The bitmap that shows a page: black is 0 and white is 255, and colours are opaque. -/
def ofRaster (r : Raster) : Bitmap :=
  let gray (level : Nat → Nat) : Bitmap := ⟨.gray, false, r.width, r.height, r.words.map level⟩
  match r.format with
  | .bit1 => gray fun v => if v = 0 then 255 else 0
  | .gray8 => gray (· % 256)
  | .rgb32 => ⟨.rgb, false, r.width, r.height, r.words.flatMap fun v => (channelLevels v).toArray⟩

end Bitmap

end ScannedPage
