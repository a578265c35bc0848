import ScannedPage.Proofs.Threshold.Background
import ScannedPage.Proofs.Threshold.Fallback
import ScannedPage.Proofs.Threshold.Moments
import ScannedPage.Proofs.Threshold.Otsu

/-!
# A page of one level

Around every pixel of a page of one level the mean is this level and the deviation is zero, whatever the window
(`tableStats_filled`). So no rule on local moments has a field for it. The background rule filters it into another
such page, and Niblack draws that in one colour, which the sign of the adjustment decides; there is no split into
ink and paper (`gatos_uniformPage`). Every method falls back, and a histogram with one level, or with none under an
empty mask, has the last threshold of all.
-/

namespace ScannedPage.Threshold

open Finset Scalar

/-- A gray page of one level. -/
def uniformPage (d : Resolution) (s : Size) (level : Nat) : Raster := ⟨.gray8, d, Grid.filled s level⟩

section Page

variable {d : Resolution} {s : Size} {level : Nat}

/-- A page of one level shows it at every position inside. -/
theorem word_uniformPage {x y : Nat} (hxy : s.Contains x y) : (uniformPage d s level).word x y = level :=
  (Grid.getD_filled s level x y 0).trans (if_pos hxy)

/-- A gray page whose words are all the same is one of one level. -/
theorem eq_uniformPage {r : Raster} (hgray : r.format = .gray8)
    (hlevel : ∀ x y, r.size.Contains x y → r.word x y = level) : r = uniformPage r.resolution r.size level :=
  Raster.ext_word hgray rfl rfl fun x y hxy => (hlevel x y hxy).trans (word_uniformPage hxy).symm

end Page

/-- Parameters brought in range leave a method its adjustment. -/
theorem Method.adjustment_normalized {K : Type} [Scalar K] [DecidableLE K] [DecidableLT K] (method : Method K) :
    method.normalized.adjustment = method.adjustment := by
  cases method with
  | wolf p _ lower upper =>
    rw [normalized]
    split <;> rfl
  | _ => rfl

variable {d : Resolution} {s : Size} {level : Nat}

section Histogram

/-- A histogram of a page of one level counts no other one. -/
theorem ofRasterWhere_uniformPage (selected : Nat → Nat → Bool) {l : Nat}
    (hl : (Histogram.ofRasterWhere (uniformPage d s level) selected).count l ≠ 0) : l = level % 256 := by
  rw [Histogram.count_ofRasterWhere] at hl
  obtain ⟨p, hp⟩ := card_ne_zero.mp hl
  obtain ⟨hin, -, rfl⟩ := mem_filter.mp hp
  have hinside : s.Contains p.1 p.2 := Size.mem_positions.mp hin
  rw [word_uniformPage hinside]

/-- Under every mask of its size, a page of one level has the last threshold of all. -/
theorem globalEstimate_uniformPage [Transcendentals] {mask : Option Mask} (hmask : ∀ m ∈ mask, m.size = s)
    (adjustment : Int) :
    globalEstimate ℚ (uniformPage d s level) mask adjustment =
      .ok (.direct (.global (adjust 255 adjustment))) := by
  have hhistogram : ∃ selected, Histogram.ofRaster (uniformPage d s level) mask =
      .ok (Histogram.ofRasterWhere (uniformPage d s level) selected) := by
    cases mask with
    | none => exact ⟨_, Histogram.ofRaster_none_eq_ok rfl⟩
    | some m => exact ⟨_, Histogram.ofRaster_some_eq_ok rfl (hmask m rfl)⟩
  obtain ⟨selected, hhistogram⟩ := hhistogram
  have hotsu : otsu ℚ (Histogram.ofRasterWhere (uniformPage d s level) selected) = 255 :=
    otsu_eq_of_one_level fun _ hl => ofRasterWhere_uniformPage selected hl
  rw [globalEstimate, hhistogram, ← hotsu]
  rfl

end Histogram

section Statistics

variable {P : Finset (Nat × Nat)}

/-- A grid filled with a level shows it at every position inside. -/
theorem levelAt_filled (hin : P ⊆ s.positions) {p : Nat × Nat} (hp : p ∈ P) :
    levelAt (Grid.filled s level) p = level := by
  rw [levelAt, Grid.getD_filled, if_pos (Size.mem_positions.mp (hin hp))]

/-- The mean of one level is the level. -/
theorem meanOver_filled (hP : P.Nonempty) (hin : P ⊆ s.positions) : meanOver (Grid.filled s level) P = level := by
  have hcard : (P.card : ℚ) ≠ 0 := Nat.cast_ne_zero.mpr hP.card_pos.ne'
  rw [meanOver, sum_congr rfl fun p hp => levelAt_filled hin hp, sum_const, nsmul_eq_mul,
    mul_div_cancel_left₀ _ hcard]

/-- Nothing deviates from the only level of a grid. -/
theorem varianceOver_filled (hP : P.Nonempty) (hin : P ⊆ s.positions) :
    varianceOver (Grid.filled s level) P = 0 := by
  have hnone (p : Nat × Nat) (hp : p ∈ P) :
      (levelAt (Grid.filled s level) p - meanOver (Grid.filled s level) P) ^ 2 = 0 := by
    rw [meanOver_filled hP hin, levelAt_filled hin hp, sub_self, sq, zero_mul]
  rw [varianceOver, sum_eq_zero hnone, zero_div]

variable [Transcendentals] {window : Window}

/-- The statistics of a page of one level have this mean everywhere, and no deviation. -/
theorem tableStats_filled (hsqrt : Transcendentals.sqrt 0 = 0) (hwidth : 1 ≤ window.width)
    (hheight : 1 ≤ window.height) :
    (tableStats window (Grid.filled s level) : LocalStats ℚ) = Grid.filled s ⟨level, 0⟩ := by
  rw [tableStats_eq_exactStats _ hwidth hheight, exactStats, Grid.size_filled,
    ← Grid.ofFn_const s (Moments.mk _ _)]
  refine Grid.ext_get? rfl fun x y => ?_
  rw [Grid.get?_ofFn, Grid.get?_ofFn]
  split
  · next hxy =>
    have hself : (x, y) ∈ window.positions s x y :=
      mem_filter.mpr ⟨Size.mem_positions.mpr hxy, by dsimp only; omega, by dsimp only; omega⟩
    have hin : window.positions s x y ⊆ s.positions := filter_subset _ _
    rw [momentsOver, meanOver_filled ⟨_, hself⟩ hin, varianceOver_filled ⟨_, hself⟩ hin, hsqrt]
  · rfl

/-- Statistics without deviation have no greatest deviation. -/
theorem maxDeviation_filled (mean : ℚ) : LocalStats.maxDeviation (Grid.filled s (⟨mean, 0⟩ : Moments ℚ)) = 0 := by
  rw [LocalStats.maxDeviation]
  refine Array.foldl_induction (motive := fun _ best => best = 0) Nat.cast_zero fun i best hbest => ?_
  have hcell : (Grid.filled s (⟨mean, 0⟩ : Moments ℚ)).cells[i] = ⟨mean, 0⟩ := Array.getElem_replicate ..
  rw [hcell, hbest, greatest_rat, max_self]

end Statistics

section Background

variable [Transcendentals] {window : Window} {k noise : ℚ} {adjustment : Int}

/-- Where nothing deviates, the filter keeps the mean as far as it is a level. -/
theorem wienerLevel_of_uniform (noise : ℚ) (level : Nat) : wienerLevel noise ⟨level, 0⟩ level = min level 255 := by
  have hvalue (share : ℚ) : (level : ℚ) + share * ((level : ℚ) - level) = level := by
    rw [sub_self, mul_zero, add_zero]
  rw [wienerLevel]
  dsimp only
  rw [hvalue, ite_self, Scalar.round_natCast, toLevel_natCast]

/-- A page of one level is filtered into one. -/
theorem wiener_uniformPage (hsqrt : Transcendentals.sqrt 0 = 0) (side : Nat) (noise : ℚ) :
    wiener (uniformPage d s level) side noise = .ok (uniformPage d s (min level 255)) := by
  have hstats : localStats (uniformPage d s level) (.normalize side (uniformPage d s level).width
      (uniformPage d s level).height) false = .ok (Grid.filled s (⟨level, 0⟩ : Moments ℚ)) := by
    obtain ⟨hwidth, hheight⟩ := Window.one_le_normalize side s.width s.height
    rw [localStats_eq_ok rfl]
    exact congrArg Except.ok (tableStats_filled hsqrt hwidth hheight)
  have hdrawn : Raster.ofFn .gray8 d s (fun x y => wienerLevel (noise * noise)
      ((Grid.filled s (⟨level, 0⟩ : Moments ℚ)).getD x y ⟨((0 : Nat) : ℚ), ((0 : Nat) : ℚ)⟩)
        ((uniformPage d s level).word x y)) = uniformPage d s (min level 255) := by
    refine congrArg (Raster.mk .gray8 d) (Grid.ext_getD rfl 0 fun x y hxy => ?_)
    have hin : s.Contains x y := hxy
    rw [Grid.getD_ofFn, if_pos hin, Grid.getD_filled, if_pos hin, Grid.getD_filled, if_pos hin,
      word_uniformPage hin, wienerLevel_of_uniform]
  rw [wiener, requireGray_eq_ok rfl]
  simp only [bind, Except.bind, hstats]
  exact congrArg Except.ok hdrawn

/-- The field of one threshold, off a level by an adjustment. -/
def levelField (s : Size) (level : Nat) (adjustment : Int) : Field := .ofGrid (Grid.filled s (level + adjustment))

/-- Without deviation Niblack has the level itself for a threshold, and the adjustment moves that. -/
theorem niblackField_uniformPage (hsqrt : Transcendentals.sqrt 0 = 0) (hwidth : 1 ≤ window.width)
    (hheight : 1 ≤ window.height) (hlevel : level ≤ 255) (k : ℚ) (adjustment : Int) :
    niblackField (uniformPage d s level) window k adjustment = .ok (levelField s level adjustment) := by
  have hthreshold : toLevel (niblackRule k ⟨(level : ℚ), 0⟩) = level := by
    rw [niblackRule, mul_zero, sub_zero, toLevel_natCast, min_eq_left hlevel]
  have hfield : fieldOf (Grid.filled s (⟨level, 0⟩ : Moments ℚ)) adjustment (niblackRule k) =
      levelField s level adjustment := by
    rw [fieldOf, Grid.map_filled, hthreshold, levelField]
  rw [niblackField, localStats_eq_ok rfl, ← hfield, ← tableStats_filled hsqrt hwidth hheight]
  rfl

omit [Transcendentals] in
/-- The field of one threshold draws a page of its level in one colour, which the sign of the adjustment
decides. -/
theorem isBlack_drawing_uniformPage (hlevel : level ≤ 255) {p : Nat × Nat} (hp : s.Contains p.1 p.2) :
    ((Surface.field (levelField s level adjustment)).drawing (uniformPage d s level)).IsBlack p ↔
      0 < adjustment := by
  have hat : (levelField s level adjustment).at? p.1 p.2 = some (level + adjustment) :=
    (Grid.get?_filled s _ p.1 p.2).trans (if_pos hp)
  rw [Surface.isBlack_drawing (r := uniformPage d s level) hp, Surface.isBlack, hat, word_uniformPage hp,
    Option.map_some, Option.getD_some, Field.isBlack, decide_eq_true_eq]
  simp only [levelField, Field.ofGrid, Field.ofValues]
  omega

omit [Transcendentals] in
/-- The drawing of a page of one level lacks one of the two colours. -/
theorem not_twoSided_drawing_uniformPage (hlevel : level ≤ 255) :
    ¬ TwoSided s ((Surface.field (levelField s level adjustment)).drawing (uniformPage d s level)) := by
  rintro ⟨⟨p, hp, hblack⟩, q, hq, hwhite⟩
  exact hwhite ((isBlack_drawing_uniformPage hlevel hq).mpr ((isBlack_drawing_uniformPage hlevel hp).mp hblack))

/-- A page of one level is split into another one and its drawing in one colour. -/
theorem splits_uniformPage (hsqrt : Transcendentals.sqrt 0 = 0) (hwidth : 1 ≤ window.width)
    (hheight : 1 ≤ window.height) :
    Splits (uniformPage d s level) window k noise adjustment (uniformPage d s (min level 255))
      ((Surface.field (levelField s (min level 255) adjustment)).drawing (uniformPage d s (min level 255))) :=
  ⟨_, wiener_uniformPage hsqrt wienerSide noise,
    niblackField_uniformPage hsqrt hwidth hheight (Nat.min_le_right _ _) k adjustment,
    Surface.binarize_eq_ok (s := s) rfl ⟨rfl, rfl⟩⟩

/-- The background rule has no field for a page of one level. -/
theorem gatos_uniformPage (hsqrt : Transcendentals.sqrt 0 = 0) (hwidth : 1 ≤ window.width)
    (hheight : 1 ≤ window.height) (k scale noise : ℚ) (adjustment : Int) :
    gatos (uniformPage d s level) window k scale noise adjustment = .ok none :=
  gatos_of_not_twoSided (s := s) rfl ⟨rfl, rfl⟩ (splits_uniformPage hsqrt hwidth hheight)
    (not_twoSided_drawing_uniformPage (Nat.min_le_right level 255)) scale

end Background

/-- No method has a field for a page of one level. -/
theorem fallsBack_uniformPage [Transcendentals] (hsqrt : Transcendentals.sqrt 0 = 0) (method : Method ℚ) :
    FallsBack (uniformPage d s level) method := by
  have hwindow (p : LocalParameters ℚ) : 1 ≤ (windowOn (uniformPage d s level) p).width ∧
      1 ≤ (windowOn (uniformPage d s level) p).height := Window.one_le_normalize ..
  have hflat (p : LocalParameters ℚ) : (tableStats (windowOn (uniformPage d s level) p)
      (uniformPage d s level).pixels : LocalStats ℚ).maxDeviation ≤ ((0 : Nat) : ℚ) := by
    have hstats : (tableStats (windowOn (uniformPage d s level) p) (uniformPage d s level).pixels : LocalStats ℚ) =
        Grid.filled s ⟨level, 0⟩ := tableStats_filled hsqrt (hwindow p).1 (hwindow p).2
    rw [hstats, maxDeviation_filled, Nat.cast_zero]
  cases method with
  | otsu => exact trivial
  | sauvola p => exact hflat p
  | wolf p => exact hflat p
  | gatos p scale noise adjustment =>
    exact gatos_uniformPage hsqrt (hwindow p).1 (hwindow p).2 p.coefficient scale noise adjustment

/-- On a page of one level all methods agree, whatever their parameters and whatever a mask selects: each gives one
threshold for the whole page, the last of all moved by the adjustment, and no iteration is behind it. -/
theorem estimate_of_one_level [Transcendentals] (hsqrt : Transcendentals.sqrt 0 = 0) {r : Raster}
    (hgray : r.format = .gray8)
    {level : Nat} (hlevel : ∀ x y, r.size.Contains x y → r.word x y = level) (method : Method ℚ)
    {mask : Option Mask} (hmask : ∀ m ∈ mask, m.size = r.size) :
    ∃ threshold : Nat, (threshold : Int) = max 30 (min 225 (255 + method.adjustment)) ∧
      estimate r method mask = .ok { surface := .global threshold, converged := true, iterations := none } := by
  refine ⟨adjust 255 method.adjustment, Int.toNat_of_nonneg (by omega), ?_⟩
  have hpage := eq_uniformPage hgray hlevel
  have hback : FallsBack r method.normalized := hpage ▸ fallsBack_uniformPage hsqrt method.normalized
  rw [estimate, Raster.toGray_eq_self hgray, estimateGray_of_fallsBack hgray hback, method.adjustment_normalized,
    hpage]
  exact globalEstimate_uniformPage hmask method.adjustment

/-- Light paper without any ink, under methods with adjustments of both signs and a mask that selects nothing. -/
theorem estimate_of_one_level_light_paper :
    letI := Transcendentals.ofSquares
    let r := uniformPage .standard ⟨3, 2, by decide, by decide⟩ 240
    let nothing : Mask := .empty r.size
    estimate r (.otsu (-300) : Method ℚ) none = .ok ⟨.global 30, true, none⟩ ∧
    estimate r (.sauvola ⟨0, 1 / 3⟩ (-55) : Method ℚ) (some nothing) = .ok ⟨.global 200, true, none⟩ ∧
    estimate r (.wolf ⟨5, 2⟩ (-5) 254 1 : Method ℚ) none = .ok ⟨.global 225, true, none⟩ ∧
    estimate r (.gatos ⟨7, -1⟩ 1 0 (-100) : Method ℚ) (some nothing) = .ok ⟨.global 155, true, none⟩ ∧
    estimate r (.gatos ⟨7, 3 / 10⟩ 0 5 40 : Method ℚ) none = .ok ⟨.global 225, true, none⟩ := by
  let _ := Transcendentals.ofSquares
  intro r nothing
  have hsqrt : Transcendentals.sqrt 0 = 0 := by decide +kernel
  have hlevel (x y : Nat) (hxy : r.size.Contains x y) : r.word x y = 240 := word_uniformPage hxy
  have hestimate (method : Method ℚ) {mask : Option Mask} (hmask : ∀ m ∈ mask, m.size = r.size) (threshold : Nat)
      (hthreshold : (threshold : Int) = max 30 (min 225 (255 + method.adjustment))) :
      estimate r method mask = .ok ⟨.global threshold, true, none⟩ := by
    obtain ⟨t, ht, hglobal⟩ := estimate_of_one_level hsqrt rfl hlevel method hmask
    obtain rfl : t = threshold := Int.ofNat_inj.mp (ht.trans hthreshold.symm)
    exact hglobal
  have hnothing : ∀ m ∈ some nothing, m.size = r.size := fun m hm => Option.some.inj hm ▸ rfl
  have hfree : ∀ m ∈ (none : Option Mask), m.size = r.size := fun _ hm => nomatch hm
  exact ⟨hestimate _ hfree 30 (by decide), hestimate _ hnothing 200 (by decide), hestimate _ hfree 225 (by decide),
    hestimate _ hnothing 155 (by decide), hestimate _ hfree 225 (by decide)⟩

end ScannedPage.Threshold
