import Mathlib.Order.Interval.Finset.Nat
import ScannedPage.Proofs.Colour
import ScannedPage.Proofs.Floating.Shares
import ScannedPage.Proofs.Histogram
import ScannedPage.Proofs.Levels
import ScannedPage.Raster.Contrast

/-!
# The stretch of the gray levels

Each of the two cut levels is where the pixels counted from its end of the gray levels become more than its share
allows. The scans hold what they have counted (`darkCut_cuts`, `brightCut_cuts`), and each of them ends at such a
level, since no share reaches the whole page. Two shares that make less than the whole page cannot be used up on
both sides of one level, so the cut levels do not cross (`CutsDark.le_of_cutsBright`). In exact arithmetic the
levels between them spread in their order over the whole range (`spreads_level`).
-/

namespace ScannedPage

namespace Histogram

variable (h : Histogram) {allowed : Nat}

/-- There are no fewer pixels below a greater level. -/
theorem countBelow_mono {m n : Nat} (hle : m ≤ n) : h.countBelow m ≤ h.countBelow n := by
  rw [countBelow_eq_sum, countBelow_eq_sum]
  exact Finset.sum_le_sum_of_subset (Finset.range_subset_range.mpr hle)

/-- Too many pixels lie at or below the level, and not too many below it. -/
structure CutsDark (allowed level : Nat) : Prop where
  lt_levels : level < 256
  below_le : h.countBelow level ≤ allowed
  lt_upto : allowed < h.countBelow (level + 1)

/-- Too many pixels lie at or above the level, and not too many above it. -/
structure CutsBright (allowed level : Nat) : Prop where
  lt_levels : level < 256
  above_le : h.total ≤ allowed + h.countBelow (level + 1)
  lt_from : allowed + h.countBelow level < h.total

/-- The search from a level on finds the cut if it has seen the pixels below and they are not too many. -/
theorem darkCut_go_cuts (htotal : allowed < h.total) (fuel : Nat) {level : Nat} (hfuel : fuel + level = 256)
    (hseen : h.countBelow level ≤ allowed) :
    h.CutsDark allowed (darkCut.go h allowed fuel level (h.countBelow level)) := by
  induction fuel generalizing level with
  | zero =>
    obtain rfl : level = 256 := by omega
    exact absurd htotal (Nat.not_lt.mpr hseen)
  | succ fuel ih =>
    rw [darkCut.go]
    split
    · next hcut => exact ⟨by omega, hseen, hcut⟩
    · next hmore => exact ih (by omega) (Nat.le_of_not_lt hmore)

/-- The dark cut is found in the levels. -/
theorem darkCut_cuts (htotal : allowed < h.total) : h.CutsDark allowed (h.darkCut allowed) :=
  h.darkCut_go_cuts htotal 256 rfl (Nat.zero_le allowed)

/-- The search below a level finds the cut if it has seen the other pixels and they are not too many. -/
theorem brightCut_go_cuts (htotal : allowed < h.total) {level seen : Nat} (hlevel : level ≤ 256)
    (hrest : seen + h.countBelow level = h.total) (hseen : seen ≤ allowed) :
    h.CutsBright allowed (brightCut.go h allowed level seen) := by
  induction level generalizing seen with
  | zero => exact absurd htotal (Nat.not_lt.mpr (hrest ▸ hseen))
  | succ level ih =>
    rw [countBelow] at hrest
    rw [brightCut.go]
    split
    · next hcut =>
      refine ⟨hlevel, ?_, by omega⟩
      rw [countBelow]
      omega
    · next hmore => exact ih (by omega) (by omega) (Nat.le_of_not_lt hmore)

/-- The bright cut is found in the levels. -/
theorem brightCut_cuts (htotal : allowed < h.total) : h.CutsBright allowed (h.brightCut allowed) :=
  h.brightCut_go_cuts htotal (Nat.le_refl 256) (Nat.zero_add _) (Nat.zero_le allowed)

variable {h}

/-- The cuts of shares that make less than all pixels do not cross. -/
theorem CutsDark.le_of_cutsBright {dark bright low high : Nat} (hlow : h.CutsDark dark low)
    (hhigh : h.CutsBright bright high)
    (hsum : dark + bright < h.total) : low ≤ high := by
  by_contra hcross
  have hmono : h.countBelow (high + 1) ≤ h.countBelow low := h.countBelow_mono (Nat.lt_of_not_le hcross)
  have hbelow := hlow.below_le
  have habove := hhigh.above_le
  omega

end Histogram

namespace Raster

/-- The positions whose level has a property. -/
def showing (r : Raster) (P : Nat → Prop) [DecidablePred P] : Finset (Nat × Nat) :=
  r.size.positions.filter fun p => P (r.word p.1 p.2)

variable {r : Raster}

/-- The histogram of a gray page counts the positions that are darker than a level. -/
theorem IsGrayPage.countBelow_eq (h : r.IsGrayPage) (level : Nat) :
    (Histogram.ofRasterWhere r fun _ _ => true).countBelow level = (r.showing (· < level)).card := by
  have hmaps : ∀ p ∈ r.showing (· < level), r.word p.1 p.2 ∈ Finset.range level :=
    fun p hp => Finset.mem_range.mpr (Finset.mem_filter.mp hp).2
  rw [Histogram.countBelow_eq_sum, Finset.card_eq_sum_card_fiberwise hmaps]
  refine Finset.sum_congr rfl fun l hl => ?_
  rw [Histogram.count_ofRasterWhere, Histogram.seenAt, showing, Finset.filter_filter]
  refine congrArg Finset.card (Finset.filter_congr fun p _ => ?_)
  rw [Nat.mod_eq_of_lt (h.word_lt p.1 p.2)]
  exact ⟨fun hp => ⟨hp.2 ▸ Finset.mem_range.mp hl, hp.2⟩, fun hp => ⟨rfl, hp.2⟩⟩

/-- The histogram of a gray page counts all positions. -/
theorem IsGrayPage.total_eq (h : r.IsGrayPage) :
    (Histogram.ofRasterWhere r fun _ _ => true).total = r.size.area := by
  rw [Histogram.total, h.countBelow_eq, ← r.size.card_positions, showing, Finset.filter_true_of_mem]
  exact fun p _ => h.word_lt p.1 p.2

/-- Every position is darker than a level or shows a level from there on. -/
theorem card_showing_add (r : Raster) (level : Nat) :
    (r.showing (· < level)).card + (r.showing (level ≤ ·)).card = r.size.area := by
  have hsplit := Finset.card_filter_add_card_filter_not (s := r.size.positions) fun p => r.word p.1 p.2 < level
  simp only [not_lt] at hsplit
  exact hsplit.trans r.size.card_positions

end Raster

namespace Contrast

open Scalar

/-- A map of levels that keeps their order, with black up to one level and white from another on. -/
structure Spreads (f : Nat → Nat) (low high : Nat) : Prop where
  monotone : Monotone f
  black {v : Nat} : v ≤ low → f v = 0
  white {v : Nat} : high ≤ v → f v = 255
  le_white (v : Nat) : f v ≤ 255

/-- In exact arithmetic the levels between the cuts spread over all levels. -/
theorem spreads_level [Transcendentals] {low high : Nat} (hlt : low < high) :
    Spreads (level ℚ low high) low high := by
  have hrange : (0 : ℚ) < (high - low : Nat) := Nat.cast_pos.mpr (Nat.sub_pos_of_lt hlt)
  have hmono : Monotone (level ℚ low high) := fun v w hvw => by
    have hcast : (v : ℚ) ≤ w := Nat.cast_le.mpr hvw
    refine toLevel_mono (round_mono ?_)
    gcongr
  have hlow : level ℚ low high low = 0 := by
    have hzero : ((low : ℚ) - low) * ((255 : Nat) : ℚ) / (high - low : Nat) = ((0 : Nat) : ℚ) := by simp
    rw [level, hzero, round_natCast, toLevel_natCast]
    rfl
  have hhigh : level ℚ low high high = 255 := by
    have hall : ((high : ℚ) - low) * ((255 : Nat) : ℚ) / (high - low : Nat) = ((255 : Nat) : ℚ) := by
      rw [Nat.cast_sub hlt.le] at hrange ⊢
      exact mul_div_cancel_left₀ _ hrange.ne'
    rw [level, hall, round_natCast, toLevel_natCast]
    rfl
  have hle (v : Nat) : level ℚ low high v ≤ 255 := LawfulLevels.toLevel_le _
  refine ⟨hmono, fun hv => ?_, fun hv => ?_, hle⟩
  · exact Nat.le_zero.mp ((hmono hv).trans hlow.le)
  · exact Nat.le_antisymm (hle _) (hhigh.ge.trans (hmono hv))

/-- A share of a number of pixels is less than one half of it. -/
theorem two_mul_allowance_lt {total : Nat} (htotal : total ≠ 0) {share : Float} (hshare : isShare share = true) :
    2 * allowance total share < total := by
  obtain ⟨hzero, hhalf⟩ := Bool.and_eq_true_iff.mp hshare
  exact Floating.two_mul_toNat_mul_lt htotal (of_decide_eq_true hzero) (of_decide_eq_true hhalf)

/-- The levels at which the pixels of a page become more than allowed, counted from the dark and from the bright
end. -/
structure IsCut (r : Raster) (dark bright low high : Nat) : Prop where
  low_le_high : low ≤ high
  high_lt : high < 256
  darker_le : (r.showing (· < low)).card ≤ dark
  lt_dark : dark < (r.showing (· ≤ low)).card
  brighter_le : (r.showing (high < ·)).card ≤ bright
  lt_bright : bright < (r.showing (high ≤ ·)).card

/-- The cuts of the histogram of a gray page are the levels at which its pixels become more than allowed. -/
theorem isCut_of_cuts {r : Raster} (h : r.IsGrayPage) {dark bright low high : Nat}
    (hlow : (Histogram.ofRasterWhere r fun _ _ => true).CutsDark dark low)
    (hhigh : (Histogram.ofRasterWhere r fun _ _ => true).CutsBright bright high)
    (hsum : dark + bright < r.size.area) :
    IsCut r dark bright low high := by
  have htotal := h.total_eq
  have hle := hlow.le_of_cutsBright hhigh (htotal.symm ▸ hsum)
  have hbelow := hlow.below_le
  have hupto := hlow.lt_upto
  have habove := hhigh.above_le
  have hfrom := hhigh.lt_from
  rw [h.countBelow_eq] at hbelow hupto
  rw [h.countBelow_eq, htotal] at habove hfrom
  have hsplit := r.card_showing_add high
  have hsplit' := r.card_showing_add (high + 1)
  simp only [Nat.lt_succ_iff, Nat.succ_le_iff] at hupto habove hsplit'
  exact ⟨hle, hhigh.lt_levels, hbelow, hupto, by omega, by omega⟩

end Contrast

namespace Raster

/-- A gray page with lawful shares is stretched between the cuts of its histogram. -/
theorem stretch_eq {r : Raster} (h : r.format = .gray8) {black white : Float}
    (hblack : Contrast.isShare black = true) (hwhite : Contrast.isShare white = true) :
    r.stretch black white = .ok (Contrast.apply r (Histogram.ofRasterWhere r fun _ _ => true) black white) := by
  rw [stretch, requireFormat_eq_ok h, hblack, hwhite, Histogram.ofRaster_none_eq_ok h]
  rfl

/-- Stretching a gray page with lawful shares. Fewer than half of the pixels may saturate at each end. The cut
levels do not cross; no more pixels than allowed are darker than the dark one while too many are not brighter, and
likewise from the bright end. A page whose cut levels meet stays as it is; any other one has its levels replaced by
a map that, in exact arithmetic, keeps the order and spreads what lies between the cut levels over all levels. -/
theorem stretch_saturates_shares [Transcendentals] {r : Raster} (h : r.IsGrayPage) {black white : Float}
    (hblack : Contrast.isShare black = true) (hwhite : Contrast.isShare white = true) :
    let dark := Contrast.allowance r.size.area black
    let bright := Contrast.allowance r.size.area white
    let (low, high) := Contrast.cuts (Histogram.ofRasterWhere r fun _ _ => true) black white
    (2 * dark < r.size.area ∧ 2 * bright < r.size.area ∧ dark + bright < r.size.area) ∧
      Contrast.IsCut r dark bright low high ∧
      (low = high → r.stretch black white = .ok r) ∧
      (low < high → r.stretch black white = .ok (r.mapWords .gray8 (Contrast.level Float low high)) ∧
        Contrast.Spreads (Contrast.level ℚ low high) low high) := by
  have harea : r.size.area ≠ 0 := Nat.ne_of_gt (Nat.mul_pos r.size.width_pos r.size.height_pos)
  have hdark := Contrast.two_mul_allowance_lt harea hblack
  have hbright := Contrast.two_mul_allowance_lt harea hwhite
  have hsum : Contrast.allowance r.size.area black + Contrast.allowance r.size.area white < r.size.area := by omega
  have htotal := h.total_eq
  have hcut := Contrast.isCut_of_cuts h (Histogram.darkCut_cuts _ (by omega))
    (Histogram.brightCut_cuts _ (by omega)) hsum
  have hstretch := stretch_eq h.format_eq hblack hwhite
  rw [Contrast.apply, Contrast.cuts, h.total_eq] at hstretch
  rw [Contrast.cuts, h.total_eq]
  refine ⟨⟨hdark, hbright, hsum⟩, hcut, fun heq => ?_, fun hlt => ⟨?_, Contrast.spreads_level hlt⟩⟩
  · exact hstretch.trans (congrArg Except.ok (if_pos heq.ge))
  · exact hstretch.trans (congrArg Except.ok (if_neg hlt.not_ge))

/-- Of four pixels one may saturate at each end, so the second and the third level become black and white. -/
theorem stretch_saturates_shares_four_levels :
    letI := Transcendentals.ofSquares
    let r : Raster := ⟨.gray8, .standard, ⟨⟨4, 1, by decide, by decide⟩, #[10, 120, 130, 200], rfl⟩⟩
    Contrast.IsCut r 1 1 120 130 ∧ r.stretch 0.25 0.25 = .ok (r.mapWords .gray8 (Contrast.level Float 120 130)) ∧
      Contrast.Spreads (Contrast.level ℚ 120 130) 120 130 := by
  let _ := Transcendentals.ofSquares
  intro r
  have hgray : r.IsGrayPage := InRange.hasShape (by decide)
  have hshare : Contrast.isShare (0.25 : Float) = true := by decide +kernel
  have hallowed : Contrast.allowance r.size.area (0.25 : Float) = 1 := by decide +kernel
  have hcuts : Contrast.cuts (Histogram.ofRasterWhere r fun _ _ => true) (0.25 : Float) 0.25 = (120, 130) := by
    decide +kernel
  have hstretch := stretch_saturates_shares hgray hshare hshare
  rw [hallowed, hcuts] at hstretch
  obtain ⟨-, hcut, -, hspread⟩ := hstretch
  exact ⟨hcut, hspread (by decide)⟩

end Raster

end ScannedPage
