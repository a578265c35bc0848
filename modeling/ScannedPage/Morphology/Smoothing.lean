import ScannedPage.Morphology.Error

/-!
# Smoothing of stroke edges

Six patterns describe bumps and notches of one to three pixels on an edge. Where a pattern matches,
its erase cells turn white and its fill cells turn black. Each pattern is tried in four orientations;
a pass matches against the image as it was before the pass, so its replacements do not depend on the
order in which places are visited. Outside the image everything is white, and a pattern may hang over
the border.
-/

namespace ScannedPage.Morphology

/-- What a cell of a pattern asks of the pixel under it, and what it makes of it. -/
inductive Cell
  /-- Any pixel, left as it is. -/
  | any
  /-- A black pixel, left as it is. -/
  | black
  /-- A white pixel, left as it is. -/
  | white
  /-- A black pixel that turns white. -/
  | erase
  /-- A white pixel that turns black. -/
  | fill
deriving DecidableEq, Repr

namespace Cell

/-- The cell agrees with a pixel that is black or not. -/
def accepts : Cell → Bool → Bool
  | any, _ => true
  | black, b => b
  | erase, b => b
  | white, b => !b
  | fill, b => !b

/-- The word that the cell writes, if it writes one. -/
def replacement : Cell → Option Nat
  | erase => some 0
  | fill => some 1
  | _ => none

end Cell

/-- Cells with their column and row inside a box of the given sides. -/
structure Pattern where
  width : Nat
  height : Nat
  cells : List (Nat × Nat × Cell)
deriving DecidableEq, Repr

namespace Pattern

/-- The pattern of rows of one length, from top to bottom. -/
def ofRows (rows : List (List Cell)) : Pattern where
  width := (rows.head?.map (·.length)).getD 0
  height := rows.length
  cells := rows.zipIdx.flatMap fun (row, j) => row.zipIdx.map fun (cell, i) => (i, j, cell)

/-- The pattern turned by a quarter clockwise. -/
def rotate (p : Pattern) : Pattern where
  width := p.height
  height := p.width
  cells := p.cells.map fun (i, j, cell) => (p.height - 1 - j, i, cell)

/-- The pattern and its three further orientations. -/
def orientations (p : Pattern) : List Pattern :=
  [p, p.rotate, p.rotate.rotate, p.rotate.rotate.rotate]

end Pattern

open Cell in
/-- Bumps are erased first, from one to three pixels long; then notches are filled, from three to one. -/
def smoothingPatterns : List Pattern :=
  [[[black, black, black],
    [white, erase, white],
    [white, white, white]],
   [[black, white, any],
    [black, white, white],
    [black, erase, white],
    [black, erase, white],
    [black, white, white],
    [black, white, any]],
   [[black, white, any],
    [black, white, any],
    [black, white, white],
    [black, erase, white],
    [black, erase, white],
    [black, erase, white],
    [black, white, white],
    [black, white, any],
    [black, white, any]],
   [[black, black, any],
    [black, black, any],
    [black, black, white],
    [black, fill, white],
    [black, fill, white],
    [black, fill, white],
    [black, black, white],
    [black, black, any],
    [black, black, any]],
   [[black, black, any],
    [black, black, white],
    [black, fill, white],
    [black, fill, white],
    [black, black, white],
    [black, black, any]],
   [[white, white, white],
    [black, fill, black],
    [black, black, black]]].map Pattern.ofRows

/-- The pixel at a place is black; places outside are white. -/
def isBlackAt (image : Grid Nat) (x y : Int) : Bool :=
  if 0 ≤ x ∧ 0 ≤ y then image.getD x.toNat y.toNat 0 != 0 else false

/-- The pattern matches with its top left cell at a place, the anchor. -/
def Pattern.matchesAt (p : Pattern) (image : Grid Nat) (anchor : Int × Int) : Bool :=
  p.cells.all fun (i, j, cell) => cell.accepts (isBlackAt image (anchor.1 + i) (anchor.2 + j))

/-- Writes a word at a place inside, and counts it if it differs from the one before. -/
def replaceWord (state : Grid Nat × Nat) (x y : Int) (word : Nat) : Grid Nat × Nat :=
  let (image, changed) := state
  if 0 ≤ x ∧ 0 ≤ y ∧ x < image.size.width ∧ y < image.size.height then
    if image.getD x.toNat y.toNat 0 = word then (image, changed)
    else (image.set x.toNat y.toNat word, changed + 1)
  else (image, changed)

/-- The replacements of the pattern at one anchor, if it matched the image before the pass. -/
def Pattern.replaceAt (p : Pattern) (before : Grid Nat) (state : Grid Nat × Nat) (anchor : Int × Int) :
    Grid Nat × Nat :=
  if p.matchesAt before anchor then
    p.cells.foldl (fun state (i, j, cell) =>
      match cell.replacement with
      | some word => replaceWord state (anchor.1 + i) (anchor.2 + j) word
      | none => state) state
  else state

/-- Every anchor at which the pattern meets the image, row by row. -/
def Pattern.anchors (p : Pattern) (s : Size) : List (Int × Int) :=
  (List.range (s.height + p.height - 1)).flatMap fun y =>
    (List.range (s.width + p.width - 1)).map fun x =>
      (Int.ofNat x - (p.width - 1 : Nat), Int.ofNat y - (p.height - 1 : Nat))

/-- One pass: the replacements at the given anchors, and the number of pixels changed. -/
def Pattern.pass (p : Pattern) (anchors : List (Int × Int)) (image : Grid Nat) : Grid Nat × Nat :=
  anchors.foldl (p.replaceAt image) (image, 0)

/-- All passes, in order. -/
def smoothGrid (image : Grid Nat) : Grid Nat :=
  (smoothingPatterns.flatMap Pattern.orientations).foldl
    (fun image p => (p.pass (p.anchors image.size) image).1) image

/-- Removes small bumps from the edges of a bilevel page and fills small notches. -/
def smoothEdges (r : Raster) : Except MorphologyError Raster := do
  require .bit1 r
  return { r with pixels := smoothGrid r.pixels }

end ScannedPage.Morphology
