import ScannedPage.Mask

/-!
# Conversion between pixel formats

Gray and colour views of a raster, masks of black pixels, and inversion. A conversion to the format
that a raster already has changes nothing, not even words out of range.
-/

namespace ScannedPage.Raster

/-- Words replaced one by one, under a possibly new format. -/
@[inline]
def mapWords (r : Raster) (format : PixelFormat) (f : Nat → Nat) : Raster :=
  { r with format, pixels := r.pixels.map f }

/-- The gray view: black is 0, white is 255, and a colour shows its luminance. -/
def toGray (r : Raster) : Raster :=
  if r.format = .gray8 then r else r.mapWords .gray8 r.format.grayOf

/-- The colour view: a gray level fills all three channels. -/
def toRgb (r : Raster) : Raster :=
  if r.format = .rgb32 then r
  else r.mapWords .rgb32 fun v =>
    let g := r.format.grayOf v
    Color.compose g g g

/-- The selection of the black pixels of a bilevel raster. -/
def toMask (r : Raster) : Except ImageError Mask := do
  r.requireFormat .bit1
  return r.pixels.map (· != 0)

/-- The bilevel raster that is black where the mask selects. -/
def ofMask (m : Mask) (resolution : Resolution) : Raster :=
  ⟨.bit1, resolution, m.map fun b => if b then 1 else 0⟩

/-- Black for white and white for black; colours have no inverse. A word out of range wraps around. -/
def invert (r : Raster) : Except ImageError Raster :=
  match r.format with
  | .rgb32 => .error (.unsupportedFormat "1-bit or 8-bit gray")
  | f => .ok (r.mapWords f f.inverseOf)

/-- Every pixel inside the rectangle gets the word, clamped to the format; the rectangle may reach beyond. -/
def fillRect (r : Raster) (area : Rect) (word : Nat) : Raster :=
  ofFn r.format r.resolution r.size fun x y => if area.contains x y then r.format.clamp word else r.word x y

/-- The number of black pixels of a bilevel raster. -/
def countBlack (r : Raster) : Except ImageError Nat := do
  r.requireFormat .bit1
  return r.words.foldl (fun n v => if v != 0 then n + 1 else n) 0

end ScannedPage.Raster
