import ScannedPage.Connectivity
import ScannedPage.Morphology.Error
import ScannedPage.Raster.Convert

/-!
# Reconstruction of a gray page from a marker

The marker grows into its neighbourhood as far as the mask above it allows. One iteration is a scan
from the top left, in which a pixel rises to the highest neighbour already passed, and a scan from
the bottom right back. The levels never fall and never exceed the mask; an iteration that changes
nothing ends the growth, and a cap on the iterations may end it before. Hole filling is the same
growth on the inverted page, seeded from the border.

Sides and positions are natural numbers here. `ScannedPage.Proofs.Morphology.InWords` has the same scans over words
of 32 bits with a sign: in every image that fits such words they agree with these, and in a larger one they end
with a fault or pass no pixel.
-/

namespace ScannedPage.Morphology

/-- A reconstructed page, whether the growth came to rest, and after how many iterations it ended. -/
structure Reconstruction where
  image : Raster
  converged : Bool
  iterations : Nat

/-- The levels in the middle of a scan, and whether any of them has risen. -/
structure Sweep where
  levels : Grid Nat
  changed : Bool

/-- The highest level among a pixel and the inside neighbours at the given steps. -/
def highestNear (levels : Grid Nat) (steps : List (Int × Int)) (x y : Nat) (level : Nat) : Nat :=
  steps.foldl (fun best d =>
    match levels.size.step? x y d with
    | some (x', y') => max best (levels.getD x' y' 0)
    | none => best) level

/-- Raises one pixel to its highest neighbour, as far as the cap allows. -/
@[inline]
def Sweep.propagate (caps : Grid Nat) (steps : List (Int × Int)) (x y : Nat) (s : Sweep) : Sweep :=
  let level := s.levels.getD x y 0
  let cap := caps.getD x y 0
  if level = cap then s
  else
    let raised := min (highestNear s.levels steps x y level) cap
    if level < raised then ⟨s.levels.set x y raised, true⟩ else s

/-- The scan from the top left to the bottom right. -/
def Sweep.forward (caps : Grid Nat) (c : Connectivity) (s : Sweep) : Sweep :=
  Nat.fold caps.size.area (fun i _ s =>
    s.propagate caps c.causalOffsets (i % caps.size.width) (i / caps.size.width)) s

/-- The scan from the bottom right to the top left. -/
def Sweep.backward (caps : Grid Nat) (c : Connectivity) (s : Sweep) : Sweep :=
  Nat.fold caps.size.area (fun j _ s =>
    let i := caps.size.area - 1 - j
    s.propagate caps c.anticausalOffsets (i % caps.size.width) (i / caps.size.width)) s

/-- One iteration: both scans, and whether they changed anything. -/
def iterate (caps : Grid Nat) (c : Connectivity) (levels : Grid Nat) : Sweep :=
  Sweep.backward caps c (Sweep.forward caps c ⟨levels, false⟩)

/-- The levels after at most `fuel` further iterations, with rest reached or not, and the iterations in all. -/
def grow (caps : Grid Nat) (c : Connectivity) : Nat → Nat → Grid Nat → Grid Nat × Bool × Nat
  | 0, done, levels => (levels, false, done)
  | fuel + 1, done, levels =>
    let s := iterate caps c levels
    if s.changed then grow caps c fuel (done + 1) s.levels else (s.levels, true, done + 1)

/-- The levels that the growth starts from: the marker cut off at the mask. -/
def seed (marker caps : Grid Nat) : Grid Nat :=
  Grid.ofFn marker.size fun x y => min (marker.getD x y 0 % 256) (caps.getD x y 0)

/-- The reconstruction of a marker under a mask of the same size, with at most `limit` iterations. -/
def reconstructWithin (marker mask : Raster) (c : Connectivity) (limit : Nat) :
    Except MorphologyError Reconstruction := do
  require .gray8 marker
  require .gray8 mask
  (mask.checkSides marker.size.sides).mapError .image
  if limit = 0 then throw .noIterations
  let caps := mask.pixels.map (· % 256)
  let (levels, converged, iterations) := grow caps c limit 0 (seed marker.pixels caps)
  return ⟨⟨.gray8, marker.resolution, levels⟩, converged, iterations⟩

/-- The usual cap on the iterations: the diagonal of the page, rounded up, and at least one. -/
def iterationLimit (width height : Nat) : Nat :=
  let w := Float.ofNat width
  let h := Float.ofNat height
  max (w * w + h * h).sqrt.ceil.toUInt32.toNat 1

/-- The reconstruction of a marker under a mask with the usual cap. -/
def reconstruct (marker mask : Raster) (c : Connectivity) : Except MorphologyError Reconstruction :=
  reconstructWithin marker mask c (iterationLimit marker.width marker.height)

/-- The position lies on the border of a size. -/
def onBorder (s : Size) (x y : Nat) : Bool :=
  decide (x = 0 ∨ y = 0 ∨ x + 1 = s.width ∨ y + 1 = s.height)

/-- Raises every dark basin that does not reach the border to the lowest rim around it. -/
def fillHoles (r : Raster) (c : Connectivity) : Except MorphologyError Reconstruction := do
  require .gray8 r
  let inverted ← r.invert.mapError .image
  let marker := Raster.ofFn .gray8 r.resolution r.size fun x y =>
    if onBorder r.size x y then inverted.word x y else 0
  let grown ← reconstruct marker inverted c
  return { grown with image := ← grown.image.invert.mapError .image }

end ScannedPage.Morphology
