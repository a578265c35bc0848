import ScannedPage.Proofs.Histogram
import ScannedPage.Proofs.Threshold

/-!
# Statistics under a mask

The histogram under a mask and the one under its inverse count each pixel of a page once (`card_seenAt_invert`). A
histogram reads the selected words alone, so that pages which agree there have the same one under the mask
(`ofRasterWhere_congr`), and from it the same threshold: whatever pictures a mask leaves out, they have no part in
the selected pixels turning black.
-/

namespace ScannedPage

namespace Mask

variable {m : Mask}

/-- An inverted mask selects the positions inside that the mask does not. -/
theorem get_invert {x y : Nat} (h : m.size.Contains x y) : m.invert.get x y = !m.get x y := by
  rw [invert, get, get, Grid.getD, Grid.get?_map, Grid.get?_of_contains h false]
  rfl

/-- Two pages have the same words wherever the mask selects. -/
def SeesAlike (m : Mask) (r r' : Raster) : Prop := ∀ x y, m.get x y = true → r'.word x y = r.word x y

end Mask

namespace Histogram

variable {r : Raster} {m : Mask}

/-- Every position that shows a level is selected by the mask or by its inverse. -/
theorem card_seenAt_invert (hm : m.size = r.size) (level : Nat) :
    (seenAt r m.get level).card + (seenAt r m.invert.get level).card =
      (seenAt r (fun _ _ => true) level).card := by
  have hwhole : seenAt r (fun _ _ => true) level =
      r.size.positions.filter fun p => r.word p.1 p.2 % 256 = level := by
    simp only [seenAt, true_and]
  have hunder : seenAt r m.get level =
      (r.size.positions.filter fun p => r.word p.1 p.2 % 256 = level).filter fun p => m.get p.1 p.2 = true := by
    rw [seenAt, Finset.filter_filter]
    exact Finset.filter_congr fun p _ => and_comm
  have hbeside : seenAt r m.invert.get level =
      (r.size.positions.filter fun p => r.word p.1 p.2 % 256 = level).filter fun p => ¬ m.get p.1 p.2 = true := by
    rw [seenAt, Finset.filter_filter]
    refine Finset.filter_congr fun p hp => ?_
    rw [Mask.get_invert (hm ▸ Size.mem_positions.mp hp), Bool.not_eq_true', Bool.not_eq_true, and_comm]
  rw [hwhole, hunder, hbeside, Finset.card_filter_add_card_filter_not]

/-- Pages of one size with the same words at the selected positions have the same histogram of the selection. -/
theorem ofRasterWhere_congr {r' : Raster} {selected : Nat → Nat → Bool} (hsize : r'.size = r.size)
    (hsame : ∀ x y, selected x y = true → r'.word x y = r.word x y) :
    ofRasterWhere r' selected = ofRasterWhere r selected := by
  have hwidth : r'.width = r.width := congrArg Size.width hsize
  unfold ofRasterWhere
  rw [hsize, hwidth]
  refine scan_related r.size.area _ _ (fun (h' h : Histogram) => h' = h) rfl fun i _ h' h heq => ?_
  subst heq
  dsimp only
  split
  · next hselected => rw [hsame _ _ hselected]
  · rfl

end Histogram

namespace Threshold

variable {K : Type} [Scalar K] [DecidableLE K] [DecidableLT K]

/-- The histogram method draws a page by the threshold of its histogram under the mask. -/
theorem binarize_otsu_eq_ok {r : Raster} (hgray : r.format = .gray8) {m : Mask} (hm : m.size = r.size)
    (adjustment : Int) :
    let e := Estimate.direct (.global (adjust (otsu K (.ofRasterWhere r m.get)) adjustment))
    estimate r (.otsu adjustment : Method K) (some m) = .ok e ∧
      binarize r (.otsu adjustment : Method K) (some m) = .ok (e.surface.drawing r, e) := by
  intro e
  have hestimate : estimate r (.otsu adjustment : Method K) (some m) = .ok e := by
    rw [estimate, Raster.toGray_eq_self hgray]
    change globalEstimate K r (some m) adjustment = _
    rw [globalEstimate, Histogram.ofRaster_some_eq_ok hgray hm]
    rfl
  have hbinarize := binarize_eq_ok hestimate trivial
  rw [Raster.toGray_eq_self hgray] at hbinarize
  exact ⟨hestimate, hbinarize⟩

/-- The histograms under a mask and under its inverse add up to the histogram of the page. Pages that agree
wherever the mask selects get the same threshold under it, and have the same selected pixels black. -/
theorem estimate_otsu_masked {r : Raster} (hgray : r.format = .gray8) {m : Mask} (hm : m.size = r.size) :
    (∃ under beside whole, Histogram.ofRaster r (some m) = .ok under ∧
      Histogram.ofRaster r (some m.invert) = .ok beside ∧
      Histogram.ofRaster r none = .ok whole ∧
      ∀ level, under.count level + beside.count level = whole.count level) ∧
    ∀ r' : Raster, r'.format = .gray8 → r'.size = r.size → m.SeesAlike r r' → ∀ adjustment, ∃ e b b',
      estimate r (.otsu adjustment : Method K) (some m) = .ok e ∧
      estimate r' (.otsu adjustment : Method K) (some m) = .ok e ∧
      binarize r (.otsu adjustment : Method K) (some m) = .ok (b, e) ∧
      binarize r' (.otsu adjustment : Method K) (some m) = .ok (b', e) ∧
      m.SeesAlike b b' := by
  refine ⟨⟨_, _, _, Histogram.ofRaster_some_eq_ok hgray hm, Histogram.ofRaster_some_eq_ok hgray hm,
    Histogram.ofRaster_none_eq_ok hgray, fun level => ?_⟩, fun r' hgray' hsize hsame adjustment => ?_⟩
  · rw [Histogram.count_ofRasterWhere, Histogram.count_ofRasterWhere, Histogram.count_ofRasterWhere,
      Histogram.card_seenAt_invert hm]
  · obtain ⟨hestimate, hbinarize⟩ := binarize_otsu_eq_ok (K := K) hgray hm adjustment
    obtain ⟨hestimate', hbinarize'⟩ := binarize_otsu_eq_ok (K := K) hgray' (hm.trans hsize.symm) adjustment
    rw [Histogram.ofRasterWhere_congr hsize hsame] at hestimate' hbinarize'
    refine ⟨_, _, _, hestimate, hestimate', hbinarize, hbinarize', fun x y hselected => ?_⟩
    rw [Surface.drawing, Surface.drawing, Raster.word_ofFn, Raster.word_ofFn, hsize, hsame x y hselected]

/-- Two pages that share their first three pixels, where a mask selects, and differ in the picture behind them:
both get one estimate under the mask, and their drawings agree on the three. -/
theorem estimate_otsu_beside_picture :
    let size : Size := ⟨5, 1, by decide, by decide⟩
    let mask : Mask := ⟨size, #[true, true, true, false, false], rfl⟩
    let night : Raster := ⟨.gray8, .standard, ⟨size, #[10, 200, 220, 0, 5], rfl⟩⟩
    let snow : Raster := ⟨.gray8, .standard, ⟨size, #[10, 200, 220, 255, 90], rfl⟩⟩
    (∀ under beside whole, Histogram.ofRaster night (some mask) = .ok under →
      Histogram.ofRaster night (some mask.invert) = .ok beside → Histogram.ofRaster night none = .ok whole →
      ∀ level, under.count level + beside.count level = whole.count level) ∧
    ∃ e b b', estimate night (.otsu 0 : Method Float) (some mask) = .ok e ∧
      estimate snow (.otsu 0 : Method Float) (some mask) = .ok e ∧
      binarize night (.otsu 0 : Method Float) (some mask) = .ok (b, e) ∧
      binarize snow (.otsu 0 : Method Float) (some mask) = .ok (b', e) ∧
      b'.word 0 0 = b.word 0 0 ∧ b'.word 1 0 = b.word 1 0 ∧ b'.word 2 0 = b.word 2 0 := by
  intro size mask night snow
  have hagree : ∀ x < 5, ∀ y < 1, mask.get x y = true → snow.word x y = night.word x y := by decide +kernel
  have hsees : mask.SeesAlike night snow := fun x y hselected => by
    by_cases hin : size.Contains x y
    · exact hagree x hin.1 y hin.2 hselected
    · rw [Mask.get, Grid.getD_of_not_contains hin] at hselected
      exact absurd hselected Bool.false_ne_true
  obtain ⟨⟨under, beside, whole, hunder, hbeside, hwhole, hadd⟩, hpages⟩ :=
    estimate_otsu_masked (K := Float) (r := night) rfl (m := mask) rfl
  obtain ⟨e, b, b', hnight, hsnow, hdrawn, hdrawn', hsame⟩ := hpages snow rfl rfl hsees 0
  refine ⟨fun u b w hu hb hw level => ?_, e, b, b', hnight, hsnow, hdrawn, hdrawn', ?_, ?_, ?_⟩
  · rw [← Except.ok.inj (hunder.symm.trans hu), ← Except.ok.inj (hbeside.symm.trans hb),
      ← Except.ok.inj (hwhole.symm.trans hw)]
    exact hadd level
  · exact hsame 0 0 (by decide +kernel)
  · exact hsame 1 0 (by decide +kernel)
  · exact hsame 2 0 (by decide +kernel)

end Threshold

end ScannedPage
