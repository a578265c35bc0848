import ScannedPage.Raster.Basic

/-!
# Resampling

A raster is resampled to a given size, or to a given resolution with its physical size kept. Bilevel
rasters take the nearest source pixel; gray and colour rasters interpolate between the four source
pixels around a position, each channel alone by one rule.
-/

namespace ScannedPage

/-- How the words of a resampled raster are found. -/
inductive Resampling
  /-- The nearest source pixel. -/
  | nearest
  /-- The four source pixels around the position, weighed by their distance. -/
  | bilinear
deriving DecidableEq, Repr

namespace Resampling

/-- The centre of a target pixel on a source axis, in source pixels. -/
@[inline]
def centre (i : Nat) (step : Float) : Float := (Float.ofNat i + 0.5) * step

/-- The source pixel under the centre of a target pixel. -/
def nearestIndex (i : Nat) (step : Float) (last : Nat) : Nat := min (centre i step).toUInt32.toNat last

/-- The two source pixels around the centre of a target pixel, and the weight of the second. -/
def neighbours (i : Nat) (step : Float) (last : Nat) : Nat × Nat × Float :=
  let at' := centre i step - 0.5
  let at' := if at' < 0.0 then 0.0 else at'
  let first := min at'.floor.toUInt32.toNat last
  (first, min (first + 1) last, at' - Float.ofNat first)

/-- The value between four corner levels. -/
def between (dx dy : Float) (a b c d : Nat) : Nat :=
  let top := Float.ofNat a * (1.0 - dx) + Float.ofNat b * dx
  let bottom := Float.ofNat c * (1.0 - dx) + Float.ofNat d * dx
  (top * (1.0 - dy) + bottom * dy).round.toUInt8.toNat

end Resampling

namespace Raster

open Resampling

/-- The word between the four source pixels around a target position. -/
def wordBetween (r : Raster) (x y : Nat) (stepX stepY : Float) : Nat :=
  let (x0, x1, dx) := neighbours x stepX (r.width - 1)
  let (y0, y1, dy) := neighbours y stepY (r.height - 1)
  let mix (channel : Nat → Nat) : Nat :=
    between dx dy (channel (r.word x0 y0)) (channel (r.word x1 y0)) (channel (r.word x0 y1))
      (channel (r.word x1 y1))
  match r.format with
  | .rgb32 => Color.compose (mix Color.red) (mix Color.green) (mix Color.blue)
  | _ => mix (· % 256)

/-- One axis of the resolution after resampling, at least one dot. -/
def scaledAxis (dots : Nat) (step : Float) : Nat :=
  let scaled := (Float.ofNat dots / step).round
  (if scaled < 1.0 then 1.0 else scaled).toUInt32.toNat

/-- The raster resampled to the given sides; the resolution follows, so that the physical size stays. -/
def scaleToSides (r : Raster) (width height : Nat) (how : Resampling) : Except ImageError Raster := do
  let s ← Size.ofSides width height
  if s = r.size then return r
  let stepX := Float.ofNat r.width / Float.ofNat width
  let stepY := Float.ofNat r.height / Float.ofNat height
  let resolution : Resolution :=
    ⟨scaledAxis r.resolution.horizontal stepX, scaledAxis r.resolution.vertical stepY⟩
  if r.format = .bit1 ∨ how = .nearest then
    return ofFn r.format resolution s fun x y =>
      r.word (nearestIndex x stepX (r.width - 1)) (nearestIndex y stepY (r.height - 1))
  else
    return ofFn r.format resolution s fun x y => r.wordBetween x y stepX stepY

/-- A side at another resolution: the nearest whole number of pixels, halves up, at least one, in 32 bits. -/
def scaledSide (side source target : Nat) : Nat := max ((side * target + source / 2) / source) 1 % UInt32.size

/-- The raster resampled so that its resolution becomes the target. -/
def scaleToResolution (r : Raster) (target : Resolution) : Except ImageError Raster := do
  let source := r.resolution
  if !source.valid || !target.valid then throw (.zeroResolution source target)
  if source = target then return r
  let scaled ← r.scaleToSides (scaledSide r.width source.horizontal target.horizontal)
    (scaledSide r.height source.vertical target.vertical) .bilinear
  return scaled.withResolution target

end Raster

end ScannedPage
