import Mathlib.Algebra.BigOperators.Intervals
import ScannedPage.Proofs.Counting
import ScannedPage.Raster.Histogram

/-!
# What a histogram counts

Every gray page has a histogram, under any mask of its size. The histogram of a selection counts, level by level,
the selected positions that show the level (`count_ofRasterWhere`). The numbers and the sums below a threshold are
sums over the levels below it, and what is left of the whole is summed over the levels from the threshold on.
-/

namespace ScannedPage.Histogram

open Finset

section Existence

variable {r : Raster} {m : Mask}

/-- A gray page has a histogram. -/
theorem ofRaster_none_eq_ok (h : r.format = .gray8) : ofRaster r none = .ok (ofRasterWhere r fun _ _ => true) := by
  rw [ofRaster, Raster.requireFormat_eq_ok h]
  rfl

/-- A gray page has a histogram under every mask of its size. -/
theorem ofRaster_some_eq_ok (h : r.format = .gray8) (hm : m.size = r.size) :
    ofRaster r (some m) = .ok (ofRasterWhere r m.get) := by
  rw [ofRaster, Raster.requireFormat_eq_ok h]
  exact congrArg (· >>= fun _ => pure (ofRasterWhere r m.get)) (Mask.checkSides_eq_ok hm)

end Existence

section Counts

/-- One more pixel counts at its own level only. -/
theorem count_add (h : Histogram) {level : Nat} (hlevel : level < 256) (l : Nat) :
    (h.add level).count l = h.count l + if level = l then 1 else 0 := by
  have hsize : level < h.bins.size := h.size_bins.symm ▸ hlevel
  simp only [count, add, Array.getD_eq_getD_getElem?, Array.getElem?_modify]
  split
  · next heq =>
    obtain rfl := heq
    rw [Array.getElem?_eq_getElem hsize]
    rfl
  · rfl

/-- An empty histogram counts nothing. -/
theorem count_empty (level : Nat) : empty.count level = 0 := by
  simp only [count, empty, Array.getD_eq_getD_getElem?, Array.getElem?_replicate]
  split <;> rfl

/-- A histogram of a function counts what the function gives at each level. -/
theorem count_ofFn (f : Nat → Nat) (level : Nat) : (ofFn f).count level = if level < 256 then f level else 0 := by
  rw [count, ofFn, Array.getD_eq_getD_getElem?, Array.getElem?_ofFn]
  split <;> rfl

/-- No pixel has a level beyond the last. -/
theorem count_of_le (h : Histogram) {level : Nat} (hlevel : 256 ≤ level) : h.count level = 0 := by
  rw [count, Array.getD_eq_getD_getElem?, Array.getElem?_eq_none (h.size_bins.trans_le hlevel), Option.getD_none]

/-- The selected positions of a raster that show a level. -/
def seenAt (r : Raster) (selected : Nat → Nat → Bool) (level : Nat) : Finset (Nat × Nat) :=
  r.size.positions.filter fun p => selected p.1 p.2 = true ∧ r.word p.1 p.2 % 256 = level

/-- A histogram counts the selected positions that show each level. -/
theorem count_ofRasterWhere (r : Raster) (selected : Nat → Nat → Bool) (level : Nat) :
    (ofRasterWhere r selected).count level = (seenAt r selected level).card := by
  rw [seenAt, ← r.size.count_scan]
  unfold ofRasterWhere
  refine scan_induction r.size.area _ empty (fun n (h : Histogram) => h.count level = Nat.count (fun i =>
    selected (i % r.width) (i / r.width) = true ∧ r.word (i % r.width) (i / r.width) % 256 = level) n)
    ((count_empty level).trans (Nat.count_zero _).symm) fun i _ h hcount => ?_
  rw [Nat.count_succ]
  by_cases hselected : selected (i % r.width) (i / r.width) = true
  · rw [if_pos hselected, count_add h (Nat.mod_lt _ (by decide)), hcount]
    simp only [hselected, true_and]
  · rw [if_neg hselected, if_neg fun hboth => hselected hboth.1, hcount]
    rfl

end Counts

section Sums

variable (h : Histogram)

/-- The number of pixels below a level is the sum of the numbers at the levels below it. -/
theorem countBelow_eq_sum (n : Nat) : h.countBelow n = ∑ level ∈ range n, h.count level := by
  induction n with
  | zero => rfl
  | succ n ih => rw [countBelow, ih, sum_range_succ]

/-- The levels below a level add up to the sum of these levels, each as often as it is counted. -/
theorem sumBelow_eq_sum (n : Nat) : h.sumBelow n = ∑ level ∈ range n, h.count level * level := by
  induction n with
  | zero => rfl
  | succ n ih => rw [sumBelow, ih, sum_range_succ]

/-- Without any pixel no level is counted. -/
theorem count_eq_zero_of_total_eq_zero (hnone : h.total = 0) (level : Nat) : h.count level = 0 := by
  rcases Nat.lt_or_ge level 256 with hlt | hge
  · rw [total, countBelow_eq_sum] at hnone
    exact sum_eq_zero_iff.mp hnone level (mem_range.mpr hlt)
  · exact h.count_of_le hge

variable {t : Nat}

/-- The pixels below a level and those from that level on are all pixels. -/
theorem countBelow_add_sum (ht : t ≤ 256) :
    h.countBelow t + ∑ level ∈ Ico t 256, h.count level = h.total := by
  rw [total, countBelow_eq_sum, countBelow_eq_sum, sum_range_add_sum_Ico _ ht]

/-- The levels of the pixels below a level and of those from that level on add up to the sum of all levels. -/
theorem sumBelow_add_sum (ht : t ≤ 256) :
    h.sumBelow t + ∑ level ∈ Ico t 256, h.count level * level = h.weightedSum := by
  rw [weightedSum, sumBelow_eq_sum, sumBelow_eq_sum, sum_range_add_sum_Ico _ ht]

end Sums

end ScannedPage.Histogram
