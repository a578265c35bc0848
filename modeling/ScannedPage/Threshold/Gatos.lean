import ScannedPage.Morphology.Reconstruction
import ScannedPage.Threshold.Local

/-!
# Thresholds from the background surface

The page is cleaned by a Wiener filter and split into ink and paper by a Niblack field. Paper keeps
its level as background; ink takes the level that reconstruction of the inverted page lets the
surrounding paper carry into it. A pixel is black when it lies below its background by more than a
distance, which depends on the mean distance of ink from its background and falls off on dark
backgrounds. A page without ink, without paper or without a distance between them has no such surface.
-/

namespace ScannedPage.Threshold

open Scalar Morphology

variable {K : Type} [Scalar K] [DecidableLE K] [DecidableLT K]

/-- The level of a pixel moved towards its local mean by the share of the variance that is noise. -/
@[inline]
def wienerLevel (noise : K) (c : Moments K) (level : Nat) : Nat :=
  let zero : K := ((0 : Nat) : K)
  let variance := c.deviation * c.deviation
  let denominator := greatest variance noise
  let value :=
    if denominator ≤ zero then c.mean
    else c.mean + greatest (variance - noise) zero / denominator * ((level : K) - c.mean)
  toLevel (round value)

/-- The Wiener filter of a gray page for a window side and the standard deviation of the noise. -/
@[specialize]
def wiener (r : Raster) (side : Nat) (noiseSigma : K) : Except ThresholdError Raster := do
  requireGray r
  let stats : LocalStats K ← localStats r (.normalize side r.width r.height) false
  let noise := noiseSigma * noiseSigma
  let zero : Moments K := ⟨((0 : Nat) : K), ((0 : Nat) : K)⟩
  return Raster.ofFn .gray8 r.resolution r.size fun x y =>
    wienerLevel noise (stats.getD x y zero) (r.word x y)

/-- The side of the Wiener window. -/
def wienerSide : Nat := 5

/-- The sums over the ink of its distance from the background, and over the paper of its level. -/
structure Distances (K : Type) where
  ink : Nat
  inkDistance : K
  paper : Nat
  paperLevel : K

/-- One more pixel with its filtered level, its background level, and whether it is ink. -/
@[inline]
def Distances.add (d : Distances K) (isInk : Bool) (level background : Nat) : Distances K :=
  if isInk then { d with ink := d.ink + 1, inkDistance := d.inkDistance + ((background : K) - (level : K)) }
  else { d with paper := d.paper + 1, paperLevel := d.paperLevel + (background : K) }

/-- The sums over a whole page. -/
@[specialize]
def distances (filtered ink background : Raster) : Distances K :=
  let zero : K := ((0 : Nat) : K)
  Nat.fold filtered.size.area (fun i _ (d : Distances K) =>
    let x := i % filtered.width
    let y := i / filtered.width
    d.add (ink.word x y != 0) (filtered.word x y) (background.word x y)) ⟨0, zero, 0, zero⟩

/-- A whole number kept within 32 bits. -/
def clamp32 (i : Int) : Int := max (-2147483648) (min 2147483647 i)

/-- The threshold at a background level, for the mean ink distance and the mean paper level. -/
@[inline]
def gatosThreshold (scale delta paperMean : K) (background : Nat) : Int :=
  let one : K := ((1 : Nat) : K)
  let two : K := ((2 : Nat) : K)
  let p1 : K := one / two
  let p2 : K := ((4 : Nat) : K) / ((5 : Nat) : K)
  let slope := -((4 : Nat) : K) / (paperMean * (one - p1))
  let bias := two * (one + p1) / (one - p1)
  let falloff := scale * delta * (one - p2)
  let base := scale * delta * p2
  let distance := falloff / (one + exp ((background : K) * slope + bias)) + base
  clamp32 (ceilInt ((background : K) - distance))

/-- The field of a page, and how the reconstruction of its background ended. -/
structure GatosResult where
  field : Field
  converged : Bool
  iterations : Nat

/-- The reconstruction of the inverted filtered page from its paper. -/
def reconstructPaper (filtered ink : Raster) : Except ThresholdError Reconstruction := do
  let inverted ← filtered.invert.mapError .image
  let marker := Raster.ofFn .gray8 filtered.resolution filtered.size fun x y =>
    if ink.word x y != 0 then 0 else inverted.word x y
  (reconstruct marker inverted .eightWay).mapError .morphology

/-- The background field of a gray page, if it has ink, paper and a distance between them. -/
@[specialize]
def gatos (r : Raster) (window : Window) (k scale noiseSigma : K) (adjustment : Int) :
    Except ThresholdError (Option GatosResult) := do
  requireGray r
  let filtered ← wiener r wienerSide noiseSigma
  let ink ← (Surface.field (← niblackField filtered window k adjustment)).binarize filtered
  let black := ink.words.countP (· != 0)
  if black = 0 ∨ black = ink.words.size then return none
  let grown ← reconstructPaper filtered ink
  let background := grown.image.mapWords .gray8 (255 - ·)
  let d : Distances K := distances filtered ink background
  let delta := d.inkDistance / ((d.ink : Nat) : K)
  let paperMean := d.paperLevel / ((d.paper : Nat) : K)
  if delta ≤ ((0 : Nat) : K) ∨ paperMean ≤ ((0 : Nat) : K) then return none
  return some ⟨.ofGrid (background.pixels.map (gatosThreshold scale delta paperMean)), grown.converged,
    grown.iterations⟩

end ScannedPage.Threshold
