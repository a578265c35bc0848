import ScannedPage.Raster.Convert

/-!
# Synthetic pages

Pages that are described by a rule instead of a scan: uniform paper, checkerboards, ramps, noise,
rows of letter-like blocks, and bilevel drawings of points and rectangles.
-/

namespace ScannedPage.Synthetic

/-- A page that could not be built: which builder refused, and why. -/
structure Fault where
  builder : String
  cause : ImageError
deriving DecidableEq, Repr

/-- The line that reports the fault. -/
def Fault.message (f : Fault) : String :=
  "failed to build synthetic image '" ++ f.builder ++ "': " ++ f.cause.message

/-- Blames a builder for a refused image operation. -/
def blame {α : Type} (builder : String) (result : Except ImageError α) : Except Fault α :=
  result.mapError fun cause => ⟨builder, cause⟩

/-- A gray page described by the level at each position. -/
@[inline]
def grayPage (builder : String) (width height : Nat) (level : Nat → Nat → Nat) : Except Fault Raster := do
  let s ← blame builder (Size.ofSides width height)
  return Raster.ofFn .gray8 .standard s level

/-- One gray level everywhere. -/
def uniform (width height level : Nat) : Except Fault Raster :=
  blame "uniform_gray" (Raster.filled .gray8 width height level)

/-- Square cells that alternate between two levels, the dark one first. -/
def checkerboard (width height cell dark light : Nat) : Except Fault Raster :=
  let side := max cell 1
  grayPage "checkerboard" width height fun x y => if (x / side + y / side) % 2 = 0 then dark else light

/-- Levels that rise from 0 at the left edge to 255 at the right edge. -/
def ramp (width height : Nat) : Except Fault Raster :=
  let last := Float.ofNat (max width 2 - 1)
  grayPage "horizontal_ramp" width height fun x _ => (Float.ofNat x / last * 255.0).round.toUInt8.toNat

/-- One step of the noise generator: three exclusive-or shifts of a 32-bit state. -/
def noiseStep (state : UInt32) : UInt32 :=
  let a := state ^^^ (state <<< 13)
  let b := a ^^^ (a >>> 17)
  b ^^^ (b <<< 5)

/-- The levels of the first noise pixels and the state after them. -/
def noiseLevels (seed : UInt32) (count : Nat) : Array Nat :=
  (Nat.fold count (fun _ _ (levels, state) =>
    let next := noiseStep state
    (levels.push (next >>> 24).toNat, next)) ((#[] : Array Nat), seed)).1

/-- Noise that depends on the seed alone; the top byte of each state is a level. -/
def noise (width height seed : Nat) : Except Fault Raster := do
  let s ← blame "noise_gray" (Size.ofSides width height)
  let levels := noiseLevels (max seed 1).toUInt32 s.area
  return Raster.ofFn .gray8 .standard s fun x y => levels.getD (s.index x y) 0

/-- A block of 6 by 8 pixels stands at each pitch of 10 by 14 inside a margin of 8 pixels. -/
def inGlyph (width height x y : Nat) : Bool :=
  decide (8 ≤ x ∧ 8 ≤ y ∧ x + 8 < width ∧ y + 8 < height ∧ (x - 8) % 10 < 6 ∧ (y - 8) % 14 < 8)

/-- Rows of letter-like blocks on plain paper. -/
def text (width height ink paper : Nat) : Except Fault Raster :=
  grayPage "uniform_gray" width height fun x y => if inGlyph width height x y then ink else paper

/-- The colour view of a page with one rectangle of a solid colour. -/
def withColorRect (page : Raster) (rect : Rect) (r g b : Nat) : Raster :=
  let base := page.toRgb
  Raster.ofFn .rgb32 base.resolution base.size fun x y =>
    if rect.contains x y then Color.compose r g b else base.word x y

/-- A bilevel page with the listed points black; a point outside is refused. -/
def points (width height : Nat) (black : List (Nat × Nat)) : Except Fault Raster := do
  let page ← blame "binary_from_points" (Raster.blank .bit1 width height)
  black.foldlM (fun page p => blame "binary_from_points" (page.setPixel p.1 p.2 1)) page

/-- The points of a rectangle row by row, with coordinates wrapped to 32 bits. -/
def pointsOfRect (r : Rect) : List (Nat × Nat) :=
  let wrap (i : Int) (step : Nat) : Nat := ((i + step) % 4294967296).toNat
  (List.range r.h.toNat).flatMap fun dy => (List.range r.w.toNat).map fun dx => (wrap r.x dx, wrap r.y dy)

/-- A bilevel page with the listed rectangles black. -/
def rects (width height : Nat) (black : List Rect) : Except Fault Raster :=
  points width height (black.flatMap pointsOfRect)

end ScannedPage.Synthetic
