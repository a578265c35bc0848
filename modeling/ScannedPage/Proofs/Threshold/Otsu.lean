import ScannedPage.Proofs.Exact
import ScannedPage.Proofs.Histogram
import ScannedPage.Threshold.Otsu

/-!
# The scan finds the last threshold of greatest variance

The scan reaches a threshold with the weight and the sum of the levels below it, so that in exact arithmetic it
compares the variances that the thresholds have by themselves (`tracks_candidate`). Of the thresholds behind it, it
holds the last one of greatest variance: a threshold that is no worse than the best one so far takes its place
(`isGreatest_bestBelow_succ`), and any other one leaves it there (`isGreatest_bestBelow_of_lt`). The best one so
far starts below every variance, so the first threshold takes its place in any case.
-/

namespace ScannedPage.Threshold

open Finset

section Best

/-- The indices below `n` with the greatest value. -/
def bestBelow (value : Nat → ℚ) (n : Nat) : Set Nat := { t | t < n ∧ ∀ t' < n, value t' ≤ value t }

variable {value : Nat → ℚ} {n t : Nat}

/-- An index whose value is no less than those before it is the last one of the greatest value. -/
theorem isGreatest_bestBelow_succ (h : ∀ t < n, value t ≤ value n) : IsGreatest (bestBelow value (n + 1)) n := by
  refine ⟨⟨Nat.lt_succ_self n, fun t ht => ?_⟩, fun t ht => Nat.le_of_lt_succ ht.1⟩
  rcases Nat.lt_succ_iff_lt_or_eq.mp ht with hlt | rfl
  · exact h t hlt
  · exact le_refl _

/-- An index of a smaller value does not count. -/
theorem isGreatest_bestBelow_of_lt (h : IsGreatest (bestBelow value n) t) (hlt : value n < value t) :
    IsGreatest (bestBelow value (n + 1)) t := by
  obtain ⟨⟨ht, hbest⟩, hlast⟩ := h
  refine ⟨⟨Nat.lt_succ_of_lt ht, fun t' ht' => ?_⟩, fun t' ⟨ht', hbest'⟩ => ?_⟩
  · rcases Nat.lt_succ_iff_lt_or_eq.mp ht' with hbefore | rfl
    · exact hbest t' hbefore
    · exact hlt.le
  · rcases Nat.lt_succ_iff_lt_or_eq.mp ht' with hbefore | rfl
    · exact hlast ⟨hbefore, fun t'' ht'' => hbest' t'' (Nat.lt_succ_of_lt ht'')⟩
    · exact absurd (hbest' t (Nat.lt_succ_of_lt ht)) (not_le_of_gt hlt)

end Best

/-- No level lies below the first threshold, so that it gives no variance. -/
theorem varianceAt_zero [Transcendentals] (h : Histogram) : varianceAt ℚ h 0 = 0 := rfl

namespace OtsuScan

variable [Transcendentals] {h : Histogram} {n t : Nat}

/-- The scan behind the thresholds below `n`. -/
def upTo (h : Histogram) (n : Nat) : OtsuScan ℚ := Nat.fold n (fun t _ s => s.step h t) ⟨0, 0, 0, -((1 : Nat) : ℚ)⟩

/-- The scan at a threshold: the levels below it have all moved into the dark class. -/
def candidate (h : Histogram) (t : Nat) : OtsuScan ℚ := if t = 0 then upTo h t else (upTo h t).darken h (t - 1)

/-- The scan goes on behind a threshold with its dark class, and with the threshold if it is no worse than the
best. -/
theorem upTo_succ (h : Histogram) (t : Nat) :
    upTo h (t + 1) = if (candidate h t).variance ≤ (candidate h t).current h then
      { candidate h t with best := t, variance := (candidate h t).current h } else candidate h t := by
  rw [upTo, Nat.fold_succ]
  rfl

/-- The scan compares what a threshold has by itself: the weights and the sums of both of its classes, and its
variance. -/
structure Tracks (h : Histogram) (t : Nat) (s : OtsuScan ℚ) : Prop where
  darkWeight : s.weight = h.countBelow t
  darkSum : s.sum = h.sumBelow t
  brightWeight : h.total - s.weight = ∑ level ∈ Ico t 256, h.count level
  brightSum : (h.weightedSum : ℚ) - s.sum = (∑ level ∈ Ico t 256, h.count level * level : Nat)
  variance : s.current h = varianceAt ℚ h t

/-- The weight and the sum of the dark class settle everything that is compared. -/
theorem tracks_of_darkClass {s : OtsuScan ℚ} (ht : t ≤ 256) (hweight : s.weight = h.countBelow t)
    (hsum : s.sum = h.sumBelow t) : s.Tracks h t := by
  have hcount := h.countBelow_add_sum ht
  have hlevels := h.sumBelow_add_sum ht
  have hbright : (h.weightedSum : ℚ) - s.sum = (h.weightedSum - h.sumBelow t : Nat) := by
    rw [hsum, Nat.cast_sub (Nat.le.intro hlevels)]
  refine ⟨hweight, hsum, ?_, ?_, ?_⟩
  · omega
  · rw [hbright, ← hlevels, Nat.add_sub_cancel_left]
  · have hunfold : s.current h =
        if s.weight = 0 ∨ h.total - s.weight = 0 then ((0 : Nat) : ℚ)
        else spread (h.total : ℚ) s.weight (h.total - s.weight) ((s.sum : ℚ) / s.weight)
          (((h.weightedSum : ℚ) - s.sum) / (h.total - s.weight : Nat)) := rfl
    rw [hunfold, hbright, hweight, hsum]
    rfl

/-- What the scan holds behind the thresholds below `n`: the dark class of the last of them, and the last one of
the greatest variance together with this variance, which is below all variances at the start. -/
structure Scanned (h : Histogram) (n : Nat) (s : OtsuScan ℚ) : Prop where
  weight : s.weight = h.countBelow (n - 1)
  sum : s.sum = h.sumBelow (n - 1)
  start : n = 0 → s.variance < 0
  best : 0 < n → IsGreatest (bestBelow (varianceAt ℚ h) n) s.best ∧ s.variance = varianceAt ℚ h s.best

/-- Entering a threshold moves the level before it into the dark class. -/
theorem Scanned.darkClass (hs : (upTo h t).Scanned h t) :
    (candidate h t).weight = h.countBelow t ∧ (candidate h t).sum = h.sumBelow t := by
  cases t with
  | zero => exact ⟨hs.weight, hs.sum⟩
  | succ t => exact ⟨congrArg (· + h.count t) hs.weight, congrArg (· + h.count t * t) hs.sum⟩

/-- The best threshold so far stays when the next one is entered. -/
theorem best_candidate (h : Histogram) (t : Nat) :
    (candidate h t).best = (upTo h t).best ∧ (candidate h t).variance = (upTo h t).variance := by
  rw [candidate]
  split <;> exact ⟨rfl, rfl⟩

/-- One threshold more keeps what the scan holds. -/
theorem Scanned.next (ht : t < 256) (hs : (upTo h t).Scanned h t) : (upTo h (t + 1)).Scanned h (t + 1) := by
  obtain ⟨hweight, hsum⟩ := hs.darkClass
  obtain ⟨hbest, hvariance⟩ := best_candidate h t
  have htracks := tracks_of_darkClass ht.le hweight hsum
  rw [upTo_succ, hvariance, htracks.variance]
  split
  · next hle =>
    refine ⟨hweight, hsum, nofun, fun _ => ⟨isGreatest_bestBelow_succ fun t' ht' => ?_, rfl⟩⟩
    obtain ⟨hgreatest, heq⟩ := hs.best (Nat.zero_lt_of_lt ht')
    exact (hgreatest.1.2 t' ht').trans (heq.symm.trans_le hle)
  · next hnot =>
    have hlt : varianceAt ℚ h t < (upTo h t).variance := lt_of_not_ge hnot
    rcases Nat.eq_zero_or_pos t with rfl | hpos
    · -- the first threshold is never left out, since no variance is below the start
      rw [varianceAt_zero] at hlt
      exact absurd (hlt.trans (hs.start rfl)) (lt_irrefl 0)
    · obtain ⟨hgreatest, heq⟩ := hs.best hpos
      refine ⟨hweight, hsum, nofun, fun _ => ?_⟩
      rw [hbest, hvariance]
      exact ⟨isGreatest_bestBelow_of_lt hgreatest (heq ▸ hlt), heq⟩

/-- The scan holds the best threshold and the weights of the dark class behind any number of thresholds. -/
theorem scanned_upTo (hn : n ≤ 256) : (upTo h n).Scanned h n := by
  induction n with
  | zero => exact ⟨rfl, rfl, fun _ => neg_one_lt_zero, nofun⟩
  | succ n ih => exact (ih (Nat.le_of_succ_le hn)).next hn

/-- The scan tracks every threshold. -/
theorem tracks_candidate (ht : t < 256) : (candidate h t).Tracks h t := by
  obtain ⟨hweight, hsum⟩ := (scanned_upTo ht.le).darkClass
  exact tracks_of_darkClass ht.le hweight hsum

end OtsuScan

section Histograms

variable [Transcendentals] {h : Histogram}

/-- The threshold of a histogram with any pixel is the best one behind all thresholds. -/
theorem otsu_eq (hsome : 0 < h.total) : otsu ℚ h = (OtsuScan.upTo h 256).best := if_neg hsome.ne'

/-- A histogram with one level, or none, gives no threshold any variance. -/
theorem varianceAt_of_one_level {level : Nat} (honly : ∀ l, h.count l ≠ 0 → l = level) {t : Nat} (ht : t ≤ 256) :
    varianceAt ℚ h t = 0 := by
  have hempty {s : Finset Nat} (hs : level ∉ s) : ∑ l ∈ s, h.count l = 0 :=
    sum_eq_zero fun l hl => by_contra fun hcount => hs (honly l hcount ▸ hl)
  refine if_pos ?_
  rcases Nat.lt_or_ge level t with hdark | hbright
  · have hcount := h.countBelow_add_sum ht
    rw [hempty fun hmem => absurd (mem_Ico.mp hmem).1 (Nat.not_le_of_gt hdark)] at hcount
    exact Or.inr (by omega)
  · rw [h.countBelow_eq_sum]
    exact Or.inl (hempty fun hmem => absurd (mem_range.mp hmem) (Nat.not_lt_of_ge hbright))

/-- One level, or none, has the last threshold of all. -/
theorem otsu_eq_of_one_level {level : Nat} (honly : ∀ l, h.count l ≠ 0 → l = level) : otsu ℚ h = 255 := by
  rcases Nat.eq_zero_or_pos h.total with hnone | hsome
  · exact if_pos hnone
  · have hlast : IsGreatest (bestBelow (varianceAt ℚ h) 256) 255 := isGreatest_bestBelow_succ fun t ht => by
      rw [varianceAt_of_one_level honly (Nat.le_of_lt (Nat.lt_succ_of_lt ht)),
        varianceAt_of_one_level honly (by decide)]
    rw [otsu_eq hsome]
    exact ((OtsuScan.scanned_upTo le_rfl).best (by decide)).1.unique hlast

/-- A threshold makes the same classes as an earlier one when no pixel has a level between them. -/
theorem varianceAt_eq_of_no_level {t t' : Nat} (hle : t ≤ t') (hnone : ∀ l, t ≤ l → l < t' → h.count l = 0) :
    varianceAt ℚ h t' = varianceAt ℚ h t := by
  induction t', hle using Nat.le_induction with
  | base => rfl
  | succ t' hle ih =>
    have hcount : h.count t' = 0 := hnone t' hle (Nat.lt_succ_self t')
    have hsame : varianceAt ℚ h (t' + 1) = varianceAt ℚ h t' := by
      simp only [varianceAt, Histogram.countBelow, Histogram.sumBelow, hcount, Nat.zero_mul, Nat.add_zero]
    exact hsame.trans (ih fun l hl hlt => hnone l hl (Nat.lt_succ_of_lt hlt))

end Histograms

/-- The threshold of a histogram is the last one of the greatest variance. The scan that finds it compares at every
threshold the weights, the sums and the variance of the two classes that the threshold makes; with one level at
most, it gives 255. -/
theorem otsu_isGreatest [Transcendentals] (h : Histogram) :
    (∀ t < 256, (OtsuScan.candidate h t).Tracks h t) ∧
    IsGreatest { t | t < 256 ∧ ∀ t' < 256, varianceAt ℚ h t' ≤ varianceAt ℚ h t } (otsu ℚ h) ∧
    ((∃ level, ∀ l, h.count l ≠ 0 → l = level) → otsu ℚ h = 255) := by
  have hone (hlevel : ∃ level, ∀ l, h.count l ≠ 0 → l = level) :
      IsGreatest (bestBelow (varianceAt ℚ h) 256) 255 := by
    obtain ⟨level, honly⟩ := hlevel
    refine isGreatest_bestBelow_succ fun t ht => ?_
    rw [varianceAt_of_one_level honly (Nat.le_of_lt (Nat.lt_succ_of_lt ht)),
      varianceAt_of_one_level honly (by decide)]
  have hfound : IsGreatest (bestBelow (varianceAt ℚ h) 256) (otsu ℚ h) := by
    rcases Nat.eq_zero_or_pos h.total with hnone | hsome
    · rw [otsu, if_pos hnone]
      exact hone ⟨0, fun l hl => absurd (h.count_eq_zero_of_total_eq_zero hnone l) hl⟩
    · rw [otsu_eq hsome]
      exact ((OtsuScan.scanned_upTo le_rfl).best (by decide)).1
  exact ⟨fun t ht => OtsuScan.tracks_candidate ht, hfound, fun hlevel => hfound.unique (hone hlevel)⟩

/-- With one pixel at each of the levels 0, 100 and 200, the first threshold splits as well as those behind the
second level, and the last of them is found. Pixels of one level alone give 255. -/
theorem otsu_three_levels :
    letI := Transcendentals.ofSquares
    let three := Histogram.ofFn fun level => if level = 0 ∨ level = 100 ∨ level = 200 then 1 else 0
    let one := Histogram.ofFn fun level => if level = 100 then 7 else 0
    varianceAt ℚ three 1 = 5000 ∧ otsu ℚ three = 200 ∧ varianceAt ℚ three 200 = 5000 ∧ otsu ℚ one = 255 := by
  let _ := Transcendentals.ofSquares
  intro three one
  have hempty (l : Nat) (hl : ¬ (l = 0 ∨ l = 100 ∨ l = 200)) : three.count l = 0 := by
    rw [Histogram.count_ofFn, if_neg hl, ite_self]
  have hclasses : three.total = 3 ∧ three.weightedSum = 300 ∧ three.countBelow 1 = 1 ∧ three.sumBelow 1 = 0 ∧
      three.countBelow 101 = 2 ∧ three.sumBelow 101 = 100 ∧ three.countBelow 201 = 3 := by
    simp only [Histogram.total, Histogram.weightedSum, Histogram.countBelow_eq_sum, Histogram.sumBelow_eq_sum,
      three, Histogram.count_ofFn]
    decide +kernel
  obtain ⟨htotal, hsum, hcount1, hsum1, hcount101, hsum101, hcount201⟩ := hclasses
  have hfirst : varianceAt ℚ three 1 = 5000 := by
    rw [varianceAt, htotal, hsum, hcount1, hsum1]
    decide +kernel
  have hsecond : varianceAt ℚ three 101 = 5000 := by
    rw [varianceAt, htotal, hsum, hcount101, hsum101]
    decide +kernel
  have hthird : varianceAt ℚ three 201 = 0 := by
    rw [varianceAt, htotal, hcount201]
    rfl
  have hbefore (t : Nat) (ht : 101 ≤ t) (ht' : t ≤ 200) : varianceAt ℚ three t = 5000 :=
    (varianceAt_eq_of_no_level ht fun l hl hlt => hempty l (by omega)).trans hsecond
  have hbehind (t : Nat) (ht : 201 ≤ t) : varianceAt ℚ three t = 0 :=
    (varianceAt_eq_of_no_level ht fun l hl hlt => hempty l (by omega)).trans hthird
  have hle (t : Nat) : varianceAt ℚ three t ≤ 5000 := by
    rcases (by omega : t = 0 ∨ (1 ≤ t ∧ t ≤ 100) ∨ (101 ≤ t ∧ t ≤ 200) ∨ 201 ≤ t) with
      rfl | ⟨ht, ht'⟩ | ⟨ht, ht'⟩ | ht
    · exact (varianceAt_zero three).trans_le (by decide +kernel)
    · exact ((varianceAt_eq_of_no_level ht fun l hl hlt => hempty l (by omega)).trans hfirst).le
    · exact (hbefore t ht ht').le
    · rw [hbehind t ht]
      decide +kernel
  have hlast : IsGreatest { t | t < 256 ∧ ∀ t' < 256, varianceAt ℚ three t' ≤ varianceAt ℚ three t } 200 := by
    have hvalue := hbefore 200 (by decide) le_rfl
    refine ⟨⟨by decide, fun t' _ => (hle t').trans_eq hvalue.symm⟩, fun t ht => ?_⟩
    by_contra hbeyond
    have hgreatest := ht.2 200 (by decide)
    rw [hvalue, hbehind t (by omega)] at hgreatest
    exact absurd hgreatest (by decide +kernel)
  refine ⟨hfirst, (otsu_isGreatest three).2.1.unique hlast, hbefore 200 (by decide) le_rfl, ?_⟩
  refine (otsu_isGreatest one).2.2 ⟨100, fun level hlevel => ?_⟩
  by_contra hother
  exact hlevel (by rw [Histogram.count_ofFn, if_neg hother, ite_self])

end ScannedPage.Threshold
