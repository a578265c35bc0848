import Mathlib.Algebra.BigOperators.Pi
import Mathlib.Algebra.Order.BigOperators.Ring.Finset
import Mathlib.Tactic.FieldSimp
import Mathlib.Tactic.Positivity
import ScannedPage.Proofs.Counting
import ScannedPage.Proofs.Threshold
import ScannedPage.Proofs.Threshold.Fitting
import ScannedPage.Proofs.Threshold.Sums

/-!
# Local statistics are exact

The mean and the variance of the levels at a set of positions are defined by their sums. In exact arithmetic direct
summation over a rectangle computes them as they are defined (`directMoments_eq`), and the tables of sums compute
the variance as the mean of the squares less the square of the mean, which is the same number (`varianceOver_eq`).
So both give the moments of the clipped window around every pixel (`localStats_exact`).
-/

namespace ScannedPage.Threshold

open Finset

section Definitions

/-- The level at a position, as a number. -/
def levelAt (g : Grid Nat) (p : Nat × Nat) : ℚ := (g.getD p.1 p.2 0 : Nat)

/-- The mean of the levels at some positions. -/
def meanOver (g : Grid Nat) (s : Finset (Nat × Nat)) : ℚ := (∑ p ∈ s, levelAt g p) / s.card

/-- The variance of the levels at some positions: the mean of their squared deviations from the mean. -/
def varianceOver (g : Grid Nat) (s : Finset (Nat × Nat)) : ℚ :=
  (∑ p ∈ s, (levelAt g p - meanOver g s) ^ 2) / s.card

/-- The mean of the levels at some positions and their deviation, which is the square root of the variance. -/
def momentsOver [Transcendentals] (g : Grid Nat) (s : Finset (Nat × Nat)) : Moments ℚ :=
  ⟨meanOver g s, Transcendentals.sqrt (varianceOver g s)⟩

/-- The positions of an image inside the window around a position: along each axis the window begins half of its
side before the position and is as long as its side. -/
def Window.positions (window : Window) (s : Size) (x y : Nat) : Finset (Nat × Nat) :=
  s.positions.filter fun p =>
    (x ≤ p.1 + window.width / 2 ∧ p.1 + window.width / 2 < x + window.width) ∧
      (y ≤ p.2 + window.height / 2 ∧ p.2 + window.height / 2 < y + window.height)

/-- The moments of the window around every pixel. -/
def exactStats [Transcendentals] (window : Window) (g : Grid Nat) : LocalStats ℚ :=
  Grid.ofFn g.size fun x y => momentsOver g (window.positions g.size x y)

end Definitions

section Variance

variable {g : Grid Nat} {s : Finset (Nat × Nat)}

/-- A variance is not negative. -/
theorem varianceOver_nonneg : 0 ≤ varianceOver g s :=
  div_nonneg (sum_nonneg fun _ _ => sq_nonneg _) (Nat.cast_nonneg _)

/-- The variance is the mean of the squares less the square of the mean. -/
theorem varianceOver_eq (hs : 0 < s.card) :
    varianceOver g s = (∑ p ∈ s, levelAt g p * levelAt g p) / s.card - meanOver g s * meanOver g s := by
  have hcard : (s.card : ℚ) ≠ 0 := Nat.cast_ne_zero.mpr hs.ne'
  have hmean : ∑ p ∈ s, levelAt g p = meanOver g s * s.card := (div_mul_cancel₀ _ hcard).symm
  have hexpand : ∑ p ∈ s, (levelAt g p - meanOver g s) ^ 2 =
      ∑ p ∈ s, levelAt g p * levelAt g p - meanOver g s * meanOver g s * s.card := by
    calc ∑ p ∈ s, (levelAt g p - meanOver g s) ^ 2
        = ∑ p ∈ s, (levelAt g p * levelAt g p - 2 * meanOver g s * levelAt g p + meanOver g s * meanOver g s) :=
          sum_congr rfl fun p _ => by ring
      _ = ∑ p ∈ s, levelAt g p * levelAt g p - 2 * meanOver g s * ∑ p ∈ s, levelAt g p
            + s.card * (meanOver g s * meanOver g s) := by
          rw [sum_add_distrib, sum_sub_distrib, ← mul_sum, sum_const, nsmul_eq_mul]
      _ = ∑ p ∈ s, levelAt g p * levelAt g p - meanOver g s * meanOver g s * s.card := by
          rw [hmean]
          ring
  rw [varianceOver, hexpand, sub_div, mul_div_cancel_right₀ _ hcard]

end Variance

section Windows

/-- The span of a window within an axis holds the centre, and ends within the axis. -/
theorem Window.span_bounds {side centre extent : Nat} (hside : 1 ≤ side) (hcentre : centre < extent) :
    (Window.span side centre extent).1 < (Window.span side centre extent).2 ∧
      (Window.span side centre extent).2 ≤ extent :=
  have hclips := Window.clips_span hside hcentre
  ⟨hclips.nonempty, hclips.snd_le⟩

/-- A window fitted to an image covers at least a pixel along each axis. -/
theorem Window.one_le_normalize (requested width height : Nat) :
    1 ≤ (Window.normalize requested width height).width ∧
      1 ≤ (Window.normalize requested width height).height := by
  have hfit (extent : Nat) : 1 ≤ fitAxis (max (roundToOdd requested) minSide) extent := by
    have hodd : 3 ≤ extent → 1 ≤ roundToOdd extent := fun _ => by
      rw [roundToOdd]
      split <;> omega
    have hside : minSide ≤ max (roundToOdd requested) minSide := Nat.le_max_right _ _
    rw [minSide] at hside
    rw [fitAxis, minSide]
    split_ifs <;> omega
  exact ⟨hfit width, hfit height⟩

/-- The spans of a window are its positions within the image. -/
theorem Window.cells_span (window : Window) (s : Size) (x y : Nat) :
    cells (Window.span window.width x s.width).1 (Window.span window.height y s.height).1
      (Window.span window.width x s.width).2 (Window.span window.height y s.height).2 =
        window.positions s x y := by
  ext p
  simp only [cells, Window.span, Window.positions, mem_filter, Size.mem_positions, Size.Contains, mem_product,
    mem_Ico]
  omega

end Windows

section Direct

variable {g : Grid Nat} {x0 y0 x1 y1 : Nat}

/-- A scan that adds up finds the sum. -/
theorem fold_add {M : Type} [AddCommMonoid M] (n : Nat) (f : Nat → M) (start : M) :
    Nat.fold n (fun i _ s => s + f i) start = start + ∑ i ∈ range n, f i :=
  scan_induction n _ start (fun k s => s = start + ∑ i ∈ range k, f i) (by rw [range_zero, sum_empty, add_zero])
    fun i _ s hs => by rw [hs, sum_range_succ, add_assoc]

/-- A fold over a rectangle that adds up finds the sum over its positions. -/
theorem foldRect_add {M : Type} [AddCommMonoid M] (φ : Nat → M) (start : M) :
    foldRect g x0 y0 x1 y1 (fun s v => s + φ v) start = start + ∑ p ∈ cells x0 y0 x1 y1, φ (g.getD p.1 p.2 0) := by
  simp only [foldRect, fold_add]
  rw [cells, sum_product_right, sum_Ico_eq_sum_range]
  refine congrArg (start + ·) (sum_congr rfl fun j _ => ?_)
  exact (sum_Ico_eq_sum_range (fun i => φ (g.getD i (y0 + j) 0)) x0 x1).symm

variable [Transcendentals]

/-- Direct summation over a rectangle gives its moments. -/
theorem directMoments_eq : directMoments g x0 y0 x1 y1 = momentsOver g (cells x0 y0 x1 y1) := by
  have hsums : foldRect g x0 y0 x1 y1 (fun (s : ℚ × ℚ) v => s + ((v : ℚ), 1)) (0, 0) =
      (∑ p ∈ cells x0 y0 x1 y1, levelAt g p, ((cells x0 y0 x1 y1).card : ℚ)) := by
    rw [foldRect_add, Prod.mk_zero_zero, zero_add]
    refine Prod.ext Prod.fst_sum (Prod.snd_sum.trans ?_)
    rw [sum_const, nsmul_eq_mul, mul_one]
  have hsquares : foldRect g x0 y0 x1 y1 (fun s v =>
      s + ((v : ℚ) - meanOver g (cells x0 y0 x1 y1)) * ((v : ℚ) - meanOver g (cells x0 y0 x1 y1))) 0 =
      ∑ p ∈ cells x0 y0 x1 y1, (levelAt g p - meanOver g (cells x0 y0 x1 y1)) ^ 2 := by
    rw [foldRect_add, zero_add]
    exact sum_congr rfl fun p _ => (sq _).symm
  have hunfold : directMoments g x0 y0 x1 y1 =
      let sums := foldRect g x0 y0 x1 y1 (fun (s : ℚ × ℚ) v => s + ((v : ℚ), 1)) (0, 0)
      ⟨sums.1 / sums.2, Transcendentals.sqrt (foldRect g x0 y0 x1 y1 (fun s v =>
        s + ((v : ℚ) - sums.1 / sums.2) * ((v : ℚ) - sums.1 / sums.2)) 0 / sums.2)⟩ := rfl
  rw [hunfold, hsums]
  exact congrArg (fun v => Moments.mk (meanOver g (cells x0 y0 x1 y1)) (Transcendentals.sqrt (v / _))) hsquares

end Direct

section Tables

variable [Transcendentals] {g : Grid Nat} {x0 y0 x1 y1 : Nat}

/-- The number of positions of a rectangle, as the tables compute it. -/
def rectArea (x0 y0 x1 y1 : Nat) : ℚ := ((x1 - x0 : Nat) : ℚ) * ((y1 - y0 : Nat) : ℚ)

/-- The mean over a rectangle, as the tables compute it. -/
def SumTables.mean (t : SumTables ℚ) (x0 y0 x1 y1 : Nat) : ℚ :=
  rectSum t.sums t.stride x0 y0 x1 y1 / rectArea x0 y0 x1 y1

/-- The variance over a rectangle before its square root is taken, as the tables compute it. -/
def SumTables.variance (t : SumTables ℚ) (x0 y0 x1 y1 : Nat) : ℚ :=
  rectSum t.squares t.stride x0 y0 x1 y1 / rectArea x0 y0 x1 y1 - t.mean x0 y0 x1 y1 * t.mean x0 y0 x1 y1

/-- The deviation is the square root of the variance without its sign. -/
theorem SumTables.moments_eq (t : SumTables ℚ) :
    t.moments x0 y0 x1 y1 = ⟨t.mean x0 y0 x1 y1, Transcendentals.sqrt |t.variance x0 y0 x1 y1|⟩ := rfl

/-- The tables answer for a rectangle: they hold its corners and all before them, the look-ups give the sums over
its positions, no division is by zero, and the moments are those of its levels. -/
structure SumTables.Answers (t : SumTables ℚ) (g : Grid Nat) (x0 y0 x1 y1 : Nat) : Prop where
  lookup_lt : ∀ x ≤ x1, ∀ y ≤ y1, y * t.stride + x < t.sums.size ∧ y * t.stride + x < t.squares.size
  sums_eq : rectSum t.sums t.stride x0 y0 x1 y1 = ∑ p ∈ cells x0 y0 x1 y1, levelAt g p
  squares_eq : rectSum t.squares t.stride x0 y0 x1 y1 = ∑ p ∈ cells x0 y0 x1 y1, levelAt g p * levelAt g p
  area_ne_zero : rectArea x0 y0 x1 y1 ≠ 0
  mean_eq : t.mean x0 y0 x1 y1 = meanOver g (cells x0 y0 x1 y1)
  variance_eq : t.variance x0 y0 x1 y1 = varianceOver g (cells x0 y0 x1 y1)
  variance_nonneg : 0 ≤ t.variance x0 y0 x1 y1
  moments?_eq : t.moments? x0 y0 x1 y1 = some (momentsOver g (cells x0 y0 x1 y1))

/-- Tables that answer for a rectangle give its moments, with the corners checked or not. -/
theorem SumTables.Answers.moments_eq {t : SumTables ℚ} (h : t.Answers g x0 y0 x1 y1) :
    t.moments x0 y0 x1 y1 = momentsOver g (cells x0 y0 x1 y1) := by
  have hchecked := h.moments?_eq
  rw [SumTables.moments?] at hchecked
  split at hchecked
  · exact Option.some.inj hchecked
  · exact absurd hchecked (by simp)

/-- The first table of a grid holds the sums of its levels. -/
theorem isTable_sums (g : Grid Nat) :
    IsTable g.size.width (fun x y => levelAt g (x, y)) g.size.height (SumTables.ofGrid g : SumTables ℚ).sums :=
  isTable_sumTable g.size _

/-- The second table of a grid holds the sums of the squares of its levels. -/
theorem isTable_squares (g : Grid Nat) : IsTable g.size.width (fun x y => levelAt g (x, y) * levelAt g (x, y))
    g.size.height (SumTables.ofGrid g : SumTables ℚ).squares :=
  isTable_sumTable g.size _

/-- The tables of a grid answer for every rectangle inside that is not empty. -/
theorem answers_ofGrid (g : Grid Nat) (hx : x0 < x1) (hx1 : x1 ≤ g.size.width) (hy : y0 < y1)
    (hy1 : y1 ≤ g.size.height) :
    (SumTables.ofGrid g).Answers g x0 y0 x1 y1 := by
  have hcard := card_cells_pos hx hy
  have harea : rectArea x0 y0 x1 y1 = (cells x0 y0 x1 y1).card := by rw [card_cells, Nat.cast_mul, rectArea]
  have hsums := (isTable_sums g).rectSum_eq hx.le hx1 hy.le hy1
  have hsquares := (isTable_squares g).rectSum_eq hx.le hx1 hy.le hy1
  have hlookup {x y : Nat} (hxe : x ≤ x1) (hye : y ≤ y1) :=
    And.intro ((isTable_sums g).lookup_lt (hxe.trans hx1) (hye.trans hy1))
      ((isTable_squares g).lookup_lt (hxe.trans hx1) (hye.trans hy1))
  have hmean : (SumTables.ofGrid g).mean x0 y0 x1 y1 = meanOver g (cells x0 y0 x1 y1) :=
    congrArg₂ (· / ·) hsums harea
  have hvariance : (SumTables.ofGrid g).variance x0 y0 x1 y1 = varianceOver g (cells x0 y0 x1 y1) := by
    rw [varianceOver_eq hcard, SumTables.variance, hmean, harea]
    exact congrArg (· / _ - _) hsquares
  have hnonneg := varianceOver_nonneg.trans_eq hvariance.symm
  refine ⟨fun x hxe y hye => hlookup hxe hye, hsums, hsquares, ?_, hmean, hvariance, hnonneg, ?_⟩
  · rw [harea]
    exact Nat.cast_ne_zero.mpr hcard.ne'
  · have hmoments : (SumTables.ofGrid g : SumTables ℚ).moments? x0 y0 x1 y1 =
        some ((SumTables.ofGrid g).moments x0 y0 x1 y1) := by
      refine if_pos ?_
      simp only [Bool.and_eq_true, decide_eq_true_eq]
      exact ⟨⟨⟨(hlookup le_rfl le_rfl).1, (hlookup le_rfl hy.le).1⟩, (hlookup hx.le le_rfl).1⟩,
        (hlookup hx.le hy.le).1⟩
    rw [hmoments, SumTables.moments_eq, hmean, hvariance, abs_of_nonneg varianceOver_nonneg, momentsOver]

end Tables

/-- The tables of a gray page of fewer than a hundred thousand million pixels hold natural numbers below `2
^ 53`. -/
theorem exists_natCast_of_mem_tables [Transcendentals] {r : Raster} (hgray : r.format = .gray8) (hin : r.InRange)
    (harea : r.size.area < 10 ^ 11) {entry : ℚ}
    (hentry : entry ∈ (SumTables.ofGrid r.pixels).sums ∨ entry ∈ (SumTables.ofGrid r.pixels).squares) :
    ∃ n : Nat, n < 2 ^ 53 ∧ entry = n := by
  have hlevel (x y : Nat) : r.pixels.getD x y 0 ≤ 255 := (hin.hasShape.word_le x y).trans_eq (by rw [hgray]; rfl)
  rcases hentry with hsum | hsquare
  · obtain ⟨n, hn, rfl⟩ := (isTable_sums r.pixels).entry_le hlevel hsum
    exact ⟨n, hn.trans_lt (by change r.size.area * 255 < _; omega), rfl⟩
  · have htable : IsTable r.size.width
        (fun x y => ((r.pixels.getD x y 0 * r.pixels.getD x y 0 : Nat) : ℚ)) r.size.height
        (SumTables.ofGrid r.pixels).squares := by
      simp only [Nat.cast_mul]
      exact isTable_squares r.pixels
    obtain ⟨n, hn, rfl⟩ := htable.entry_le (fun x y => Nat.mul_le_mul (hlevel x y) (hlevel x y)) hsquare
    exact ⟨n, hn.trans_lt (by change r.size.area * (255 * 255) < _; omega), rfl⟩

/-- Rules that agree on the windows around all pixels make the same statistics. -/
theorem ofWindows_eq_exactStats [Transcendentals] {g : Grid Nat} {window : Window}
    {f : Nat → Nat → Nat → Nat → Moments ℚ} (hwidth : 1 ≤ window.width) (hheight : 1 ≤ window.height)
    (hf : ∀ {x0 y0 x1 y1}, x0 < x1 → x1 ≤ g.size.width → y0 < y1 → y1 ≤ g.size.height →
      f x0 y0 x1 y1 = momentsOver g (cells x0 y0 x1 y1)) :
    LocalStats.ofWindows g.size window f = exactStats window g := by
  refine Grid.ext_get? rfl fun x y => ?_
  rw [LocalStats.ofWindows, exactStats, Grid.get?_ofFn, Grid.get?_ofFn]
  split
  · next hxy =>
    obtain ⟨hx, hx1⟩ := Window.span_bounds hwidth hxy.1
    obtain ⟨hy, hy1⟩ := Window.span_bounds hheight hxy.2
    rw [← Window.cells_span, ← hf hx hx1 hy hy1]
  · rfl

/-- The tables of a grid give the moments of every window. -/
theorem tableStats_eq_exactStats [Transcendentals] (g : Grid Nat) {window : Window} (hwidth : 1 ≤ window.width)
    (hheight : 1 ≤ window.height) : tableStats window g = exactStats window g :=
  ofWindows_eq_exactStats hwidth hheight fun hx hx1 hy hy1 => (answers_ofGrid g hx hx1 hy hy1).moments_eq

/-- Local statistics of a gray page are exact. Its tables answer for every rectangle inside that is not empty, in
particular for the window around every pixel, and while the page is not too large all their entries are natural
numbers that floating point represents. By tables and by direct summation the statistics are those of the levels in
the windows: the same means, and square roots of the same variances, whatever function is taken for the square
root. -/
theorem localStats_exact [Transcendentals] {r : Raster} (hgray : r.format = .gray8) :
    (∀ x0 y0 x1 y1, x0 < x1 → x1 ≤ r.size.width → y0 < y1 → y1 ≤ r.size.height →
      (SumTables.ofGrid r.pixels).Answers r.pixels x0 y0 x1 y1) ∧
    (r.InRange → r.size.area < 10 ^ 11 →
      ∀ entry : ℚ, entry ∈ (SumTables.ofGrid r.pixels).sums ∨ entry ∈ (SumTables.ofGrid r.pixels).squares →
        ∃ n : Nat, n < 2 ^ 53 ∧ entry = n) ∧
    ∀ window : Window, 1 ≤ window.width → 1 ≤ window.height →
      (∀ x y, r.size.Contains x y → (SumTables.ofGrid r.pixels).Answers r.pixels
        (Window.span window.width x r.size.width).1 (Window.span window.height y r.size.height).1
        (Window.span window.width x r.size.width).2 (Window.span window.height y r.size.height).2) ∧
      ∀ direct, localStats r window direct = .ok (exactStats window r.pixels) := by
  have hanswers {x0 y0 x1 y1 : Nat} (hx : x0 < x1) (hx1 : x1 ≤ r.size.width) (hy : y0 < y1)
    (hy1 : y1 ≤ r.size.height) :
      (SumTables.ofGrid r.pixels).Answers r.pixels x0 y0 x1 y1 := answers_ofGrid r.pixels hx hx1 hy hy1
  refine ⟨fun x0 y0 x1 y1 => hanswers, fun hin harea entry => exists_natCast_of_mem_tables hgray hin harea,
    fun window hwidth hheight => ⟨fun x y hxy => ?_, fun direct => ?_⟩⟩
  · obtain ⟨hx, hx1⟩ := Window.span_bounds hwidth hxy.1
    obtain ⟨hy, hy1⟩ := Window.span_bounds hheight hxy.2
    exact hanswers hx hx1 hy hy1
  · rw [localStats, requireGray_eq_ok hgray]
    have htables : tableStats window r.pixels = exactStats window r.pixels :=
      ofWindows_eq_exactStats hwidth hheight fun hx hx1 hy hy1 => (hanswers hx hx1 hy hy1).moments_eq
    have hdirect : directStats window r.pixels = exactStats window r.pixels :=
      ofWindows_eq_exactStats hwidth hheight fun _ _ _ _ => directMoments_eq
    cases direct with
    | false => exact congrArg Except.ok htables
    | true => exact congrArg Except.ok hdirect

/-- On a page with the levels 0, 100 and 200 a window of two pixels holds the pixel and the one to its left, if
there is one. -/
theorem localStats_exact_even_window :
    letI := Transcendentals.ofSquares
    ∃ stats : LocalStats ℚ,
      (∀ direct,
        localStats ⟨.gray8, .standard, ⟨⟨3, 1, by decide, by decide⟩, #[0, 100, 200], rfl⟩⟩ ⟨2, 1⟩ direct =
          .ok stats) ∧
      stats.cells.map (fun m => (m.mean, m.deviation)) = #[(0, 0), (50, 50), (150, 50)] := by
  refine ⟨_, ((@localStats_exact .ofSquares _ rfl).2.2 ⟨2, 1⟩ (by decide) (by decide)).2, ?_⟩
  decide +kernel

end ScannedPage.Threshold
