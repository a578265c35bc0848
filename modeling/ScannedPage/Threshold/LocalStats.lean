import ScannedPage.Scalar
import ScannedPage.Threshold.Error
import ScannedPage.Threshold.Window

/-!
# Mean and deviation around each pixel

Two tables hold, for every corner of the pixel grid, the sum of the levels and of their squares over
the rectangle from the origin to that corner. The sums over any rectangle are four look-ups, so the
mean and the standard deviation of a window cost the same for every window. The direct summation over
each window computes the same quantities in another order.
-/

namespace ScannedPage.Threshold

open Scalar

variable {K : Type} [Scalar K] [DecidableLE K] [DecidableLT K]

/-- The mean and the standard deviation of the levels in a window. -/
structure Moments (K : Type) where
  mean : K
  deviation : K

/-- One more row of a table of sums below the rows so far; `value` are the summands of the row. -/
@[specialize]
def appendRow (width : Nat) (value : Nat → K) (y : Nat) (table : Array K) : Array K :=
  (Nat.fold width (fun x _ (table, rowSum) =>
    let rowSum := rowSum + value x
    (table.push (table.getD (y * (width + 1) + x + 1) ((0 : Nat) : K) + rowSum), rowSum))
    (table.push ((0 : Nat) : K), ((0 : Nat) : K))).1

/-- The sums over all rectangles from the origin, one per corner of the grid, row by row. -/
@[specialize]
def sumTable (s : Size) (value : Nat → Nat → K) : Array K :=
  Nat.fold s.height (fun y _ table => appendRow s.width (fun x => value x y) y table)
    (Array.replicate (s.width + 1) ((0 : Nat) : K))

/-- The tables of a gray page: the sums of the levels and of their squares. -/
structure SumTables (K : Type) where
  /-- The number of corners in a row. -/
  stride : Nat
  sums : Array K
  squares : Array K

namespace SumTables

/-- The tables of a grid of levels. -/
@[specialize]
def ofGrid (g : Grid Nat) : SumTables K where
  stride := g.size.width + 1
  sums := sumTable g.size fun x y => ((g.getD x y 0 : Nat) : K)
  squares := sumTable g.size fun x y => ((g.getD x y 0 : Nat) : K) * ((g.getD x y 0 : Nat) : K)

/-- The sum over the rectangle `[x0, x1) × [y0, y1)` by four look-ups. -/
@[inline]
def rectSum (table : Array K) (stride x0 y0 x1 y1 : Nat) : K :=
  let corner (x y : Nat) : K := table.getD (y * stride + x) ((0 : Nat) : K)
  corner x1 y1 - corner x1 y0 - corner x0 y1 + corner x0 y0

/-- The mean and the deviation over a rectangle. -/
@[specialize]
def moments (t : SumTables K) (x0 y0 x1 y1 : Nat) : Moments K :=
  let area := ((x1 - x0 : Nat) : K) * ((y1 - y0 : Nat) : K)
  let mean := rectSum t.sums t.stride x0 y0 x1 y1 / area
  let variance := rectSum t.squares t.stride x0 y0 x1 y1 / area - mean * mean
  ⟨mean, sqrt (abs variance)⟩

/-- The mean and the deviation over a rectangle whose corners all lie in the tables. -/
@[specialize]
def moments? (t : SumTables K) (x0 y0 x1 y1 : Nat) : Option (Moments K) :=
  let inside (x y : Nat) : Bool := decide (y * t.stride + x < t.sums.size)
  if inside x1 y1 && inside x1 y0 && inside x0 y1 && inside x0 y0 then some (t.moments x0 y0 x1 y1) else none

end SumTables

/-- The moments of the window around every pixel. -/
abbrev LocalStats (K : Type) := Grid (Moments K)

namespace LocalStats

/-- The greatest deviation, or zero. -/
@[specialize]
def maxDeviation (stats : LocalStats K) : K :=
  stats.cells.foldl (fun best c => greatest best c.deviation) ((0 : Nat) : K)

/-- A rule applied to the clipped window around every pixel. -/
@[inline]
def ofWindows (s : Size) (window : Window) (f : Nat → Nat → Nat → Nat → Moments K) : LocalStats K :=
  Grid.ofFn s fun x y =>
    let (y0, y1) := Window.span window.height y s.height
    let (x0, x1) := Window.span window.width x s.width
    f x0 y0 x1 y1

end LocalStats

/-- Local statistics by tables of sums. -/
@[specialize]
def tableStats (window : Window) (g : Grid Nat) : LocalStats K :=
  let tables : SumTables K := .ofGrid g
  LocalStats.ofWindows g.size window tables.moments

/-- A fold over the levels of a rectangle, row by row. -/
@[inline]
def foldRect {σ : Type} (g : Grid Nat) (x0 y0 x1 y1 : Nat) (f : σ → Nat → σ) (start : σ) : σ :=
  Nat.fold (y1 - y0) (fun j _ s => Nat.fold (x1 - x0) (fun i _ s => f s (g.getD (x0 + i) (y0 + j) 0)) s) start

/-- The mean and the deviation over a rectangle by direct summation. -/
@[specialize]
def directMoments (g : Grid Nat) (x0 y0 x1 y1 : Nat) : Moments K :=
  let zero : K := ((0 : Nat) : K)
  let (sum, count) := foldRect g x0 y0 x1 y1 (fun (sum, count) v =>
    (sum + ((v : Nat) : K), count + ((1 : Nat) : K))) (zero, zero)
  let mean := sum / count
  let squares := foldRect g x0 y0 x1 y1 (fun squares v =>
    let d := ((v : Nat) : K) - mean
    squares + d * d) zero
  ⟨mean, sqrt (squares / count)⟩

/-- Local statistics by direct summation. -/
@[specialize]
def directStats (window : Window) (g : Grid Nat) : LocalStats K :=
  LocalStats.ofWindows g.size window (directMoments g)

/-- The local statistics of a gray page, by tables unless direct summation is asked for. -/
@[specialize]
def localStats (r : Raster) (window : Window) (direct : Bool) : Except ThresholdError (LocalStats K) := do
  requireGray r
  return if direct then directStats window r.pixels else tableStats window r.pixels

end ScannedPage.Threshold
