import ScannedPage.Morphology.Window
import ScannedPage.Page.Error
import ScannedPage.Raster.Convert

/-!
# Even illumination

The paper around a pixel is the brightest level in a window of about a tenth of an inch, and every
level is divided by it, so that paper turns white and ink keeps its proportion to the paper. Colours
are treated channel by channel.
-/

namespace ScannedPage.Illumination

/-- The side of the window: a tenth of an inch, rounded to pixels, odd and at least 3. -/
def backgroundSide (r : Resolution) : Nat := max (makeOdd ((r.minAxis + 5) / 10)) 3

/-- A level in proportion to the paper around it. -/
def evenLevel (level paper : Nat) : Nat := if 0 < paper then min (level * 255 / paper) 255 else level

/-- A gray page with even illumination. -/
def evenChannel (gray : Raster) (side : Nat) : Except PageError Raster := do
  let paper ← (Morphology.dilate gray side side).mapError .morphology
  return Raster.ofFn .gray8 gray.resolution gray.size fun x y => evenLevel (gray.word x y) (paper.word x y)

/-- A page with even illumination; a bilevel page has none to speak of and stays as it is. -/
def equalize (r : Raster) : Except PageError Raster := do
  let side := backgroundSide r.resolution
  match r.format with
  | .bit1 => return r
  | .gray8 => evenChannel r side
  | .rgb32 =>
    let red ← evenChannel (r.mapWords .gray8 Color.red) side
    let green ← evenChannel (r.mapWords .gray8 Color.green) side
    let blue ← evenChannel (r.mapWords .gray8 Color.blue) side
    return Raster.ofFn .rgb32 r.resolution r.size fun x y =>
      Color.compose (red.word x y % 256) (green.word x y % 256) (blue.word x y % 256)

end ScannedPage.Illumination
