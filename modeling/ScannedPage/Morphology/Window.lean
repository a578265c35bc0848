import ScannedPage.Morphology.Error

/-!
# Extremes over a sliding window

Erosion takes the least and dilation the greatest level of a window around each pixel. The window
splits into a pass along the rows and a pass along the columns, and one pass costs three comparisons
per pixel for any window length: a line is cut into blocks of that length, the running extreme of
each block is taken from both ends, and a window, which meets at most two blocks, is the end of one
running extreme joined with the end of another. Beyond the border a line continues with the level
that never wins, so a window is clipped to the image. A window of length `n` around position `i`
covers the positions from `i - n / 2` on.
-/

namespace ScannedPage.Morphology

/-- Which end of the order a pass looks for. -/
inductive Extreme
  | least
  | greatest
deriving DecidableEq, Repr

namespace Extreme

/-- The level that never wins. -/
def identity : Extreme → Nat
  | least => 255
  | greatest => 0

/-- The winner of two levels. -/
@[inline]
def pick : Extreme → Nat → Nat → Nat
  | least => min
  | greatest => max

end Extreme

/-- The values of a recursion along `0 … n - 1`; each depends on its position and the value before it. -/
def runningValues (n : Nat) (next : Nat → Nat → Nat) : Array Nat :=
  Nat.fold n (fun i _ values => values.push (next i (values.back?.getD 0))) #[]

/-- A line of `n` levels with `before` losing levels in front and as many behind as are asked for. -/
def padded (op : Extreme) (before n : Nat) (line : Nat → Nat) (i : Nat) : Nat :=
  if i < before ∨ before + n ≤ i then op.identity else line (i - before)

/-- The extremes of the windows of one length along a line of `n` levels. -/
def lineExtremes (op : Extreme) (length n : Nat) (line : Nat → Nat) : Array Nat :=
  if length ≤ 1 then Array.ofFn fun i : Fin n => line i.val
  else
    let total := n + length - 1
    let level := padded op (length / 2) n line
    let fromStart := runningValues total fun i before =>
      if i % length = 0 then level i else op.pick before (level i)
    let fromEnd := runningValues total fun j after =>
      let i := total - 1 - j
      if j = 0 ∨ (i + 1) % length = 0 then level i else op.pick after (level i)
    Array.ofFn fun i : Fin n =>
      op.pick (fromEnd.getD (total - 1 - i.val) 0) (fromStart.getD (i.val + length - 1) 0)

/-- The extremes over a window of the given sides: along the rows first, then along the columns. -/
def windowExtremes (op : Extreme) (width height : Nat) (pixels : Grid Nat) : Grid Nat :=
  let s := pixels.size
  let rows := Array.ofFn fun y : Fin s.height =>
    lineExtremes op width s.width fun x => pixels.getD x y.val 0 % 256
  let columns := Array.ofFn fun x : Fin s.width =>
    lineExtremes op height s.height fun y => (rows.getD y #[]).getD x.val 0
  Grid.ofFn s fun x y => (columns.getD x #[]).getD y 0

/-- The extremes of a gray raster over a window of at least one pixel. -/
def extremes (op : Extreme) (r : Raster) (width height : Nat) : Except MorphologyError Raster := do
  require .gray8 r
  if width = 0 ∨ height = 0 then throw (.emptyWindow width height)
  return ⟨.gray8, r.resolution, windowExtremes op width height r.pixels⟩

/-- Each pixel becomes the darkest of the window around it. -/
def erode (r : Raster) (width height : Nat) : Except MorphologyError Raster := extremes .least r width height

/-- Each pixel becomes the brightest of the window around it. -/
def dilate (r : Raster) (width height : Nat) : Except MorphologyError Raster :=
  extremes .greatest r width height

/-- The erosion and the dilation with one window. -/
def localExtremes (r : Raster) (width height : Nat) : Except MorphologyError (Raster × Raster) := do
  return (← erode r width height, ← dilate r width height)

/-- The dilation less the erosion: bright along edges, and zero where the page is flat. -/
def gradient (r : Raster) (width height : Nat) : Except MorphologyError Raster := do
  let (low, high) ← localExtremes r width height
  return Raster.ofFn .gray8 high.resolution high.size fun x y => high.word x y - low.word x y

end ScannedPage.Morphology
