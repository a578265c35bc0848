import ScannedPage.Morphology.Window
import ScannedPage.Morphology.Reconstruction
import ScannedPage.Raster.Contrast
import ScannedPage.Region.Labeling

/-!
# Pictures on a page

A picture is a large dark or textured area. A feature map is bright on dark pixels and on edges; its
opening by reconstruction with an element larger than letters removes text and keeps the shape of
large areas, and filling its holes keeps light details inside a picture. What stays bright enough is
the picture mask. Each of its components becomes a rectangle, and below full sensitivity the edges of
a rectangle move inward past lines that miss too much of the mask.
-/

namespace ScannedPage.Region

open Morphology

/-- The sensitivity, in percent, at which rectangles keep every pixel of their component. -/
def fullSensitivity : Nat := 100

/-- The level from which on the picture map counts as picture. -/
def pictureLevel : Nat := 48

/-- The side of the opening element: 35 pixels at 300 dots per inch, in proportion, odd and at least 3. -/
def elementSide (dots : Nat) : Nat := max (makeOdd (lengthAt dots 35)) 3

/-- A picture mask with the map it was read off, and how the reconstruction behind it ended. -/
structure PictureMask where
  mask : Mask
  map : Raster
  converged : Bool
  iterations : Nat

/-- The feature map of a stretched gray page: bright where it is dark or has edges. -/
def featureMap (stretched gradient : Raster) : Raster :=
  Raster.ofFn .gray8 stretched.resolution stretched.size fun x y =>
    max (255 - stretched.word x y) (gradient.word x y)

/-- The picture mask of a page. -/
def pictureMask (r : Raster) : Except RegionError PictureMask := do
  let stretched ← (r.toGray.stretch 0.01 0.01).mapError .image
  let edges ← (gradient stretched 3 3).mapError .morphology
  let feature := featureMap stretched edges
  let side := elementSide r.resolution.minAxis
  let marker ← (erode feature side side).mapError .morphology
  let opened ← (reconstruct marker feature .eightWay).mapError .morphology
  let filled ← (fillHoles opened.image .eightWay).mapError .morphology
  return {
    mask := filled.image.pixels.map (decide <| pictureLevel ≤ ·)
    map := filled.image
    converged := opened.converged && filled.converged
    iterations := opened.iterations }

/-- The picture mask of a page as a bilevel page. -/
def pictureMaskRaster (r : Raster) : Except RegionError Raster := do
  return Raster.ofMask (← pictureMask r).mask r.resolution

/-- The number of pixels of a line that the mask leaves out, among `length` pixels. -/
def misses (selected : Nat → Bool) (length : Nat) : Nat :=
  (List.range length).countP fun i => !selected i

/-- The unset share of a line of `length` pixels exceeds the share that a sensitivity allows. -/
def missesTooMuch (sensitivity missed length : Nat) : Bool :=
  decide ((fullSensitivity - sensitivity) * length < missed * 100)

/-- The first of `length` lines in order that does not miss too much, and the first line if all do. -/
def firstKept (length : Nat) (missing : Nat → Bool) : Nat :=
  ((List.range length).find? fun i => !missing i).getD 0

/-- A box of whole columns and rows, all edges inclusive. -/
structure Box where
  left : Nat
  top : Nat
  right : Nat
  bottom : Nat
deriving DecidableEq, Repr

namespace Box

/-- The columns of the box. -/
def width (b : Box) : Nat := b.right - b.left + 1

/-- The rows of the box. -/
def height (b : Box) : Nat := b.bottom - b.top + 1

/-- A row of the box misses too much of the mask. -/
def rowMissing (m : Mask) (sensitivity : Nat) (b : Box) (y : Nat) : Bool :=
  missesTooMuch sensitivity (misses (fun i => m.get (b.left + i) y) b.width) b.width

/-- A column of the box misses too much of the mask. -/
def columnMissing (m : Mask) (sensitivity : Nat) (b : Box) (x : Nat) : Bool :=
  missesTooMuch sensitivity (misses (fun i => m.get x (b.top + i)) b.height) b.height

/-- Moves the top edge down to the first row that does not miss too much. -/
def contractTop (m : Mask) (sensitivity : Nat) (b : Box) : Box :=
  { b with top := b.top + firstKept b.height fun i => b.rowMissing m sensitivity (b.top + i) }

/-- Moves the bottom edge up to the first row that does not miss too much. -/
def contractBottom (m : Mask) (sensitivity : Nat) (b : Box) : Box :=
  { b with bottom := b.bottom - firstKept b.height fun i => b.rowMissing m sensitivity (b.bottom - i) }

/-- Moves the left edge to the first column that does not miss too much. -/
def contractLeft (m : Mask) (sensitivity : Nat) (b : Box) : Box :=
  { b with left := b.left + firstKept b.width fun i => b.columnMissing m sensitivity (b.left + i) }

/-- Moves the right edge back to the first column that does not miss too much. -/
def contractRight (m : Mask) (sensitivity : Nat) (b : Box) : Box :=
  { b with right := b.right - firstKept b.width fun i => b.columnMissing m sensitivity (b.right - i) }

/-- Visits the edges top, bottom, left and right, each within the box that the edges before left. -/
def contract (m : Mask) (sensitivity : Nat) (b : Box) : Box :=
  let b := (b.contractTop m sensitivity).contractBottom m sensitivity
  (b.contractLeft m sensitivity).contractRight m sensitivity

/-- The box of a rectangle with positive sides inside an image. -/
def ofRect (r : Rect) : Box :=
  ⟨r.x.toNat, r.y.toNat, (r.right - 1).toNat, (r.bottom - 1).toNat⟩

/-- The box as a rectangle. -/
def toRect (b : Box) : Rect := .ofInclusive b.left b.top b.right b.bottom

end Box

/-- One rectangle for each component of a picture mask, contracted below full sensitivity. -/
def detect (m : Mask) (sensitivity : Nat) : Except RegionError (List Rect) := do
  if fullSensitivity < sensitivity then throw (.sensitivity sensitivity)
  let bounds := (labelMask m .eightWay).components.toList.map (·.bounds)
  if sensitivity = fullSensitivity then return bounds
  return bounds.map fun r => ((Box.ofRect r).contract m sensitivity).toRect

/-- The mask that selects the pixels of some rectangle. -/
def rectsToMask (rects : List Rect) (width height : Nat) : Except RegionError Mask := do
  let s ← (Size.ofSides width height).mapError .image
  return rects.foldl (fun m r => Mask.fillRect m r true) (Mask.empty s)

end ScannedPage.Region
