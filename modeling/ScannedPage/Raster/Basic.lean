import ScannedPage.Grid
import ScannedPage.Color
import ScannedPage.ImageError

/-!
# Rasters

A raster is a grid of pixel words with a format and a physical resolution. A word of a bilevel
raster is 1 for black and 0 for white, a word of a gray raster is the level, and a word of a colour
raster holds the channels of `ScannedPage.Color`. The ordinary writes clamp a word to the range of
its format; `writeRaw?` does not, so that a word out of range is a possible state and every reading
says what it makes of one.
-/

namespace ScannedPage

/-- What the words of a raster mean. -/
inductive PixelFormat
  /-- One bit per pixel, 1 is black. -/
  | bit1
  /-- One gray level per pixel. -/
  | gray8
  /-- One colour word per pixel. -/
  | rgb32
deriving DecidableEq, Repr

namespace PixelFormat

/-- The number of bits that carry the picture. -/
def bits : PixelFormat → Nat
  | bit1 => 1
  | gray8 => 8
  | rgb32 => 24

/-- The largest word of the format. -/
def maxValue : PixelFormat → Nat
  | bit1 => 1
  | gray8 => 255
  | rgb32 => 0xffffffff

/-- The name used in messages. -/
def name : PixelFormat → String
  | bit1 => "1-bit"
  | gray8 => "8-bit gray"
  | rgb32 => "32-bit colour"

/-- The short tag used where two formats are compared. -/
def tag : PixelFormat → String
  | bit1 => "Bit1"
  | gray8 => "Gray8"
  | rgb32 => "Rgb32"

/-- The word brought into the range of the format. -/
def clamp (f : PixelFormat) (word : Nat) : Nat := min word f.maxValue

/-- The word as far below the largest word of the format as the given one lies above zero. The difference is taken
in words of 32 bits without a sign, so a word beyond the largest one wraps around. -/
def inverseOf (f : PixelFormat) (word : Nat) : Nat := (f.maxValue + 4294967296 - word) % 4294967296

/-- The gray level that a word of the format shows. -/
def grayOf (f : PixelFormat) (word : Nat) : Nat :=
  match f with
  | bit1 => if word % 2 = 1 then 0 else 255
  | gray8 => word % 256
  | rgb32 => Color.luminance word

/-- The inverse of a word in range is the plain difference. -/
theorem inverseOf_of_le {f : PixelFormat} {word : Nat} (h : word ≤ f.maxValue) :
    f.inverseOf word = f.maxValue - word := by
  have hmax : f.maxValue < 4294967296 := by cases f <;> decide
  rw [inverseOf]
  omega

/-- The inverse of a word beyond the range wraps around. -/
theorem inverseOf_of_lt {f : PixelFormat} {word : Nat} (h : f.maxValue < word) (hword : word < 4294967296) :
    f.inverseOf word = 4294967296 - (word - f.maxValue) := by
  rw [inverseOf]
  omega

example : gray8.inverseOf 300 = 4294967251 := by decide

/-- Every word of every format shows a level of eight bits. -/
theorem grayOf_lt (f : PixelFormat) (word : Nat) : f.grayOf word < 256 := by
  cases f
  · simp only [grayOf]
    split <;> omega
  · exact Nat.mod_lt _ (by omega)
  · exact Color.luminance_lt word

/-- The word of pure black. -/
def blackWord : PixelFormat → Nat
  | bit1 => 1
  | gray8 => 0
  | rgb32 => Color.black

/-- The word of pure white. -/
def whiteWord : PixelFormat → Nat
  | bit1 => 0
  | gray8 => 255
  | rgb32 => Color.white

end PixelFormat

/-- The size of the given sides, refused when a side has no pixel. -/
def Size.ofSides (width height : Nat) : Except ImageError Size :=
  if h : 0 < width ∧ 0 < height then .ok ⟨width, height, h.1, h.2⟩
  else .error (.invalidDimension width height)

/-- A page image: pixel words, what they mean, and the physical resolution. -/
structure Raster where
  format : PixelFormat
  resolution : Resolution
  pixels : Grid Nat

namespace Raster

/-- The extent in pixels. -/
def size (r : Raster) : Size := r.pixels.size

/-- The number of columns. -/
def width (r : Raster) : Nat := r.pixels.size.width

/-- The number of rows. -/
def height (r : Raster) : Nat := r.pixels.size.height

/-- The words in row-major order. -/
def words (r : Raster) : Array Nat := r.pixels.cells

/-- Every word lies in the range of the format. -/
def InRange (r : Raster) : Prop := ∀ x y v, r.pixels.get? x y = some v → v ≤ r.format.maxValue

/-- The raster whose word at each position is a function of the position. -/
@[inline]
def ofFn (format : PixelFormat) (resolution : Resolution) (s : Size) (f : Nat → Nat → Nat) : Raster :=
  ⟨format, resolution, Grid.ofFn s f⟩

/-- The raster of one word everywhere, at the standard resolution. -/
def filled (format : PixelFormat) (width height word : Nat) : Except ImageError Raster := do
  let s ← Size.ofSides width height
  return ⟨format, .standard, Grid.filled s (format.clamp word)⟩

/-- The raster of zero words: white if bilevel, black otherwise. -/
def blank (format : PixelFormat) (width height : Nat) : Except ImageError Raster :=
  filled format width height 0

/-- Words in row-major order as a raster, refused when their number does not fit. -/
def ofWords (format : PixelFormat) (width height : Nat) (words : Array Nat) : Except ImageError Raster := do
  let s ← Size.ofSides width height
  match Grid.ofCells? s words with
  | some pixels => return ⟨format, .standard, pixels⟩
  | none => throw (.bufferLength s.area words.size)

/-- Gray samples, one per pixel. -/
def ofGrayBytes (width height : Nat) (bytes : Array Nat) : Except ImageError Raster :=
  ofWords .gray8 width height bytes

/-- Interleaved channels, three samples per pixel. -/
def ofRgbBytes (width height : Nat) (bytes : Array Nat) : Except ImageError Raster := do
  let s ← Size.ofSides width height
  if bytes.size = 3 * s.area then
    let sample (i : Nat) := bytes.getD i 0
    return ofFn .rgb32 .standard s fun x y =>
      let i := 3 * s.index x y
      Color.compose (sample i) (sample (i + 1)) (sample (i + 2))
  else throw (.bufferLength (3 * s.area) bytes.size)

/-- The same picture at another resolution. -/
def withResolution (r : Raster) (resolution : Resolution) : Raster := { r with resolution }

/-- The word at a position, if it lies inside. -/
def pixel? (r : Raster) (x y : Nat) : Option Nat := r.pixels.get? x y

/-- The word at a position, zero outside. -/
@[inline]
def word (r : Raster) (x y : Nat) : Nat := r.pixels.getD x y 0

/-- The gray level shown at a position, if it lies inside. -/
def gray? (r : Raster) (x y : Nat) : Option Nat := (r.pixel? x y).map r.format.grayOf

/-- The words of one row, if there is such a row. -/
def row? (r : Raster) (y : Nat) : Option (List Nat) :=
  if y < r.height then some ((List.range r.width).map fun x => r.word x y) else none

/-- Accepts rasters of the expected sides only. -/
def checkSides (r : Raster) (expected : Nat × Nat) : Except ImageError Unit :=
  if r.size.sides = expected then .ok () else .error (.dimensionMismatch expected r.size.sides)

/-- Accepts rasters of the given format only. -/
def requireFormat (r : Raster) (format : PixelFormat) : Except ImageError Unit :=
  if r.format = format then .ok () else .error (.unsupportedFormat format.name)

/-- A raster of zero words with the size and resolution of another. -/
def template (r : Raster) (format : PixelFormat) : Raster :=
  ⟨format, r.resolution, Grid.filled r.size 0⟩

/-- Replaces one pixel, with the word clamped to the format. -/
def setPixel (r : Raster) (x y word : Nat) : Except ImageError Raster :=
  if r.size.Contains x y then .ok { r with pixels := r.pixels.set x y (r.format.clamp word) }
  else .error (.indexOutOfBounds (r.size.index x y) r.words.size)

/-- Replaces the word at a place of the row-major data as it is; there may be no such place. -/
def writeRaw? (r : Raster) (index word : Nat) : Option Raster :=
  if index < r.words.size then
    some { r with pixels := r.pixels.set (index % r.width) (index / r.width) word }
  else none

/-- Replaces the place that a position has in the row-major data, even if its column lies outside. -/
def setPlace? (r : Raster) (x y word : Nat) : Option Raster :=
  r.writeRaw? (r.size.index x y) (r.format.clamp word)

/-- One word everywhere, clamped to the format. -/
def fill (r : Raster) (word : Nat) : Raster :=
  { r with pixels := Grid.filled r.size (r.format.clamp word) }

end Raster

end ScannedPage
