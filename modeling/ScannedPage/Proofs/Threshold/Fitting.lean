import Mathlib.Algebra.Order.Ring.Canonical
import Mathlib.Algebra.Order.Ring.Nat
import Mathlib.Order.Bounds.Basic
import ScannedPage.Threshold.Window

/-!
# Windows fitted to an image

The side that a request gets on an axis is the greatest odd number that exceeds neither the axis nor the request,
where a request for less counts as one for three pixels (`isGreatest_fitAxis`). A span is the interval of a window,
cut off at both ends of the axis: as it holds the centre it is never empty, and it is as long as the window exactly
when nothing is cut off (`clips_span`).
-/

namespace ScannedPage.Threshold.Window

/-- The sides that a window may have on an axis: odd, and at most the axis and the request, or three pixels if that
is more. -/
def fittingSides (requested extent : Nat) : Set Nat :=
  {side | Odd side ∧ 1 ≤ side ∧ side ≤ extent ∧ side ≤ max requested minSide}

/-- The half-open interval that a window covers on an axis without ends: it begins half of its side before the
centre. -/
def reach (side centre : Nat) : Int × Int := (centre - (side / 2 : Nat), centre - (side / 2 : Nat) + side)

/-- Rounding takes one off an even number. -/
theorem roundToOdd_eq (n : Nat) : roundToOdd n = n - (1 - n % 2) := by
  rw [roundToOdd]
  split <;> omega

/-- The greatest odd number up to a positive one is found by rounding. -/
theorem isGreatest_roundToOdd {n : Nat} (h : 0 < n) : IsGreatest {side | Odd side ∧ side ≤ n} (roundToOdd n) := by
  rw [roundToOdd_eq]
  refine ⟨⟨Nat.odd_iff.mpr (by omega), Nat.sub_le ..⟩, fun side hside => ?_⟩
  have hodd := Nat.odd_iff.mp hside.1
  have hle := hside.2
  omega

/-- Fitting to an axis rounds the smaller one of request and axis. -/
theorem fitAxis_eq {requested extent : Nat} (h : 0 < extent) :
    fitAxis (max (roundToOdd requested) minSide) extent = roundToOdd (min extent (max requested minSide)) := by
  simp only [fitAxis, roundToOdd_eq, minSide]
  split_ifs <;> omega

/-- The side on an axis is the greatest that fits. -/
theorem isGreatest_fitAxis (requested : Nat) {extent : Nat} (h : 0 < extent) :
    IsGreatest (fittingSides requested extent) (fitAxis (max (roundToOdd requested) minSide) extent) := by
  have hpos : 0 < min extent (max requested minSide) := by
    rw [minSide]
    omega
  have hsides : fittingSides requested extent = {side | Odd side ∧ side ≤ min extent (max requested minSide)} := by
    ext side
    simp only [fittingSides, Set.mem_ofPred_eq, Nat.le_min]
    exact and_congr_right fun hodd => and_iff_right hodd.pos
  rw [fitAxis_eq h, hsides]
  exact isGreatest_roundToOdd hpos

/-- What a span is to a window around a centre: its interval without what lies beyond the ends of the axis. It
holds the centre, and it has the length of the window exactly when the window does not pass an end. -/
structure Clips (side centre extent : Nat) (span : Nat × Nat) : Prop where
  fst_eq : (span.1 : Int) = max (reach side centre).1 0
  snd_eq : (span.2 : Int) = min (reach side centre).2 extent
  nonempty : span.1 < span.2
  snd_le : span.2 ≤ extent
  holds_centre : span.1 ≤ centre ∧ centre < span.2
  length_eq_iff : span.2 - span.1 = side ↔ 0 ≤ (reach side centre).1 ∧ (reach side centre).2 ≤ extent

/-- A window with a side around a centre on the axis is clipped to its span. -/
theorem clips_span {side centre extent : Nat} (hside : 1 ≤ side) (hcentre : centre < extent) :
    Clips side centre extent (span side centre extent) := by
  refine ⟨?_, ?_, ?_, ?_, ?_, ?_⟩ <;> simp only [span, reach] <;> omega

/-- The span moves with the centre. -/
theorem span_mono {side centre centre' extent : Nat} (h : centre ≤ centre') :
    (span side centre extent).1 ≤ (span side centre' extent).1 ∧
      (span side centre extent).2 ≤ (span side centre' extent).2 := by
  simp only [span]
  omega

/-- Windows can always be used. Whatever is asked for, in any image, the sides of the window are the greatest odd
numbers, at least one, that exceed neither the side of the image nor the request, or three pixels if less was asked
for. Around every position of an axis a window with a side has a span that lies within the axis, is not empty,
holds the position and has the full length if it is not clipped; from one position to the next the span never moves
back. -/
theorem normalize_isGreatest_clips_span :
    (∀ requested (s : Size),
      IsGreatest (fittingSides requested s.width) (normalize requested s.width s.height).width ∧
      IsGreatest (fittingSides requested s.height) (normalize requested s.width s.height).height) ∧
    ∀ side centre extent, 1 ≤ side → centre < extent →
      Clips side centre extent (span side centre extent) ∧
      ∀ centre', centre ≤ centre' → centre' < extent →
        (span side centre extent).1 ≤ (span side centre' extent).1 ∧
          (span side centre extent).2 ≤ (span side centre' extent).2 := by
  refine ⟨fun requested s => ⟨?_, ?_⟩, fun side centre extent hside hcentre => ⟨?_, fun centre' hle _ => ?_⟩⟩
  · exact isGreatest_fitAxis requested s.width_pos
  · exact isGreatest_fitAxis requested s.height_pos
  · exact clips_span hside hcentre
  · exact span_mono hle

/-- On an axis of three pixels a window of four around the first one is cut off at the start, and around the second
one at the end. -/
theorem normalize_isGreatest_clips_span_even_side :
    (1 ≤ 4 ∧ 0 < 3) ∧ (0 ≤ 1 ∧ 1 < 3) ∧ span 4 0 3 = (0, 2) ∧ span 4 1 3 = (0, 3) ∧ Clips 4 0 3 (0, 2) ∧
      (span 4 0 3).2 ≤ (span 4 1 3).2 := by
  obtain ⟨hclips, hmono⟩ := normalize_isGreatest_clips_span.2 4 0 3 (by decide) (by decide)
  exact ⟨by decide, by decide, by decide, by decide, hclips, (hmono 1 (by decide) (by decide)).2⟩

end ScannedPage.Threshold.Window
