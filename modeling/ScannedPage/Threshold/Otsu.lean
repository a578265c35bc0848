import ScannedPage.Scalar
import ScannedPage.Raster.Histogram

/-!
# The global threshold of a histogram

A threshold splits the levels into a dark class below it and a bright class from it on. The variance
between the classes weighs the squared distance of the class means by the shares of both classes, and
an empty class gives none. The chosen threshold is the last one of the greatest variance, found in
one scan that carries the weight and the sum of the dark class along.
-/

namespace ScannedPage.Threshold

open Scalar

variable {K : Type} [Scalar K] [DecidableLE K] [DecidableLT K]

/-- The variance between two classes with the given weights and means, out of a total weight. -/
@[inline]
def spread (total : K) (weight0 weight1 : Nat) (mean0 mean1 : K) : K :=
  let share0 := (weight0 : K) / total
  let share1 := (weight1 : K) / total
  let d := mean0 - mean1
  share0 * share1 * d * d

/-- The variance between the classes that a threshold makes. -/
@[specialize]
def varianceAt (K : Type) [Scalar K] (h : Histogram) (t : Nat) : K :=
  let weight0 := h.countBelow t
  let sum0 := h.sumBelow t
  let weight1 := h.total - weight0
  if weight0 = 0 ∨ weight1 = 0 then ((0 : Nat) : K)
  else
    let sum1 := h.weightedSum - sum0
    spread ((h.total : Nat) : K) weight0 weight1 ((sum0 : K) / (weight0 : K)) ((sum1 : K) / (weight1 : K))

/-- The scan over the thresholds: the dark class of the current one, and the best one so far. -/
structure OtsuScan (K : Type) where
  weight : Nat
  sum : Nat
  best : Nat
  variance : K

/-- Moves the pixels of one level into the dark class. -/
def OtsuScan.darken (h : Histogram) (level : Nat) (s : OtsuScan K) : OtsuScan K :=
  { s with weight := s.weight + h.count level, sum := s.sum + h.count level * level }

/-- The variance between the dark class of the scan and the rest. -/
@[specialize]
def OtsuScan.current (h : Histogram) (s : OtsuScan K) : K :=
  let weight1 := h.total - s.weight
  if s.weight = 0 ∨ weight1 = 0 then ((0 : Nat) : K)
  else
    spread ((h.total : Nat) : K) s.weight weight1 ((s.sum : K) / (s.weight : K))
      ((((h.weightedSum : Nat) : K) - (s.sum : K)) / (weight1 : K))

/-- One threshold of the scan: it becomes the best if no earlier one has a greater variance. -/
@[specialize]
def OtsuScan.step (h : Histogram) (t : Nat) (s : OtsuScan K) : OtsuScan K :=
  let s := if t = 0 then s else s.darken h (t - 1)
  let variance := s.current h
  if s.variance ≤ variance then { s with best := t, variance } else s

/-- The threshold of greatest variance, the last one of several; 255 for an empty histogram. -/
@[specialize]
def otsu (K : Type) [Scalar K] [DecidableLE K] [DecidableLT K] (h : Histogram) : Nat :=
  if h.total = 0 then 255
  else
    (Nat.fold 256 (fun t _ (s : OtsuScan K) => s.step h t) ⟨0, 0, 0, -((1 : Nat) : K)⟩).best

/-- The threshold moved by an adjustment, within `30 … 225`. The sum is one of whole numbers without a bound:
adjustments with which a sum of 32 bits overflows are excluded. -/
def adjust (threshold : Nat) (adjustment : Int) : Nat := (max 30 (min 225 (threshold + adjustment))).toNat

end ScannedPage.Threshold
