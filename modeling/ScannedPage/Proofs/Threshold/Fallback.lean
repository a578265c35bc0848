import ScannedPage.Proofs.Threshold

/-!
# Where a mask is looked at

The mask of a page restricts its histogram and nothing else. A gray page `FallsBack` under a method when the
rule of the method gives no field for it: the histogram method has no rule, a rule on local moments needs a
deviation somewhere on the page, and the background rule needs ink, paper and a distance between them. There the
threshold comes from the histogram, which refuses a mask of another size (`estimateGray_of_fallsBack`). On every
other page the estimate is a field that no mask has a part in (`estimateGray_of_not_fallsBack`), so that a mask of
another size is refused exactly where the method falls back (`estimate_otherSize`).
-/

namespace ScannedPage.Threshold

open Morphology

/-- The refusal of a mask that has another size than the page. -/
def wrongSize (r : Raster) (m : Mask) : ThresholdError := .image (.dimensionMismatch r.size.sides m.size.sides)

variable {K : Type} [Scalar K] [DecidableLE K] [DecidableLT K]
variable {gray : Raster} {method : Method K}

/-- The window of the local parameters on a page. -/
def windowOn (gray : Raster) (p : LocalParameters K) : Window := .normalize p.window gray.width gray.height

/-- The rule of the method gives no field for the gray page. -/
def FallsBack (gray : Raster) : Method K → Prop
  | .otsu _ => True
  | .sauvola p _ => (tableStats (windowOn gray p) gray.pixels : LocalStats K).maxDeviation ≤ ((0 : Nat) : K)
  | .wolf p _ _ _ => (tableStats (windowOn gray p) gray.pixels : LocalStats K).maxDeviation ≤ ((0 : Nat) : K)
  | .gatos p scale noise a => gatos gray (windowOn gray p) p.coefficient scale noise a = .ok none

/-- Whether a method falls back can be computed. -/
instance (gray : Raster) : (method : Method K) → Decidable (FallsBack gray method)
  | .otsu _ => .isTrue trivial
  | .sauvola .. | .wolf .. => inferInstanceAs (Decidable (_ ≤ _))
  | .gatos p scale noise a =>
    match h : gatos gray (windowOn gray p) p.coefficient scale noise a with
    | .ok none => .isTrue h
    | .ok (some g) => .isFalse fun hnone => absurd (h.symm.trans hnone) (by simp)
    | .error fault => .isFalse fun hnone => absurd (h.symm.trans hnone) (by simp)

section Gray

omit [DecidableLE K] [DecidableLT K] in
/-- The local statistics of a gray page come from its tables. -/
theorem localStats_eq_ok (hgray : gray.format = .gray8) (window : Window) :
    localStats gray window false = .ok (tableStats window gray.pixels : LocalStats K) := by
  rw [localStats, requireGray_eq_ok hgray]
  rfl

/-- The histogram refuses a mask of another size. -/
theorem globalEstimate_eq_error (hgray : gray.format = .gray8) {m : Mask} (h : m.size ≠ gray.size)
    (adjustment : Int) : globalEstimate K gray (some m) adjustment = .error (wrongSize gray m) := by
  have hsides : m.checkSides gray.size.sides = .error (.dimensionMismatch gray.size.sides m.size.sides) :=
    if_neg fun hsides => h (Size.eq_of_sides_eq hsides)
  have hrefused : Histogram.ofRaster gray (some m) = .error (.dimensionMismatch gray.size.sides m.size.sides) := by
    rw [Histogram.ofRaster, Raster.requireFormat_eq_ok hgray]
    exact congrArg (· >>= fun _ => pure (Histogram.ofRasterWhere gray m.get)) hsides
  rw [globalEstimate, hrefused]
  rfl

/-- A method that falls back estimates the threshold of the histogram. -/
theorem estimateGray_of_fallsBack (hgray : gray.format = .gray8) (h : FallsBack gray method) (mask : Option Mask) :
    estimateGray gray method mask = globalEstimate K gray mask method.adjustment := by
  cases method with
  | otsu adjustment => rfl
  | sauvola p adjustment =>
    rw [estimateGray, localStats_eq_ok hgray]
    exact if_pos h
  | wolf p adjustment lower upper =>
    have hnone : wolfField? (tableStats (windowOn gray p) gray.pixels : LocalStats K) (darkestLevel gray)
        p.coefficient adjustment lower upper = none := if_pos h
    rw [estimateGray, localStats_eq_ok hgray]
    simp only [windowOn] at hnone
    simp only [bind, Except.bind, hnone, Method.adjustment]
  | gatos p scale noise adjustment =>
    have hnone : gatos gray (windowOn gray p) p.coefficient scale noise adjustment = .ok none := h
    rw [windowOn] at hnone
    rw [estimateGray, hnone]
    rfl

/-- A method that does not fall back estimates a field, whatever the mask. -/
theorem estimateGray_of_not_fallsBack (hgray : gray.format = .gray8) (h : ¬ FallsBack gray method) :
    ∃ e f, e.surface = .field f ∧ ∀ mask, estimateGray gray method mask = .ok e := by
  -- every rule is done before the mask is read, so that one estimate can be named for all masks
  cases method with
  | otsu adjustment => exact absurd trivial h
  | sauvola p adjustment =>
    let stats : LocalStats K := tableStats (windowOn gray p) gray.pixels
    refine ⟨.direct (.field (sauvolaField stats p.coefficient adjustment)), _, rfl, fun mask => ?_⟩
    rw [estimateGray, localStats_eq_ok hgray]
    exact if_neg h
  | wolf p adjustment lower upper =>
    obtain ⟨f, hf⟩ : ∃ f, wolfField? (tableStats (windowOn gray p) gray.pixels : LocalStats K) (darkestLevel gray)
        p.coefficient adjustment lower upper = some f := ⟨_, if_neg h⟩
    refine ⟨.direct (.field f), f, rfl, fun mask => ?_⟩
    rw [estimateGray, localStats_eq_ok hgray]
    simp only [windowOn] at hf
    simp only [bind, Except.bind, hf]
    rfl
  | gatos p scale noise adjustment =>
    obtain ⟨result, hresult, _⟩ := gatos_returns (⟨hgray, rfl⟩ : IsGray gray.size gray) (windowOn gray p)
      p.coefficient scale noise adjustment
    cases result with
    | none => exact absurd hresult h
    | some g =>
      refine ⟨⟨.field g.field, g.converged, some g.iterations⟩, g.field, rfl, fun mask => ?_⟩
      rw [windowOn] at hresult
      rw [estimateGray, hresult]
      rfl

end Gray

/-- The field of a page that does not fall back, and the bilevel page it makes, are the same under every mask. -/
theorem estimate_of_not_fallsBack {r : Raster} (h : ¬ FallsBack r.toGray method.normalized) :
    ∃ e f b, e.surface = .field f ∧ b.HasShape .bit1 r.size r.toGray.resolution ∧
      ∀ mask, estimate r method mask = .ok e ∧ binarize r method mask = .ok (b, e) := by
  have hgray : IsGray r.size r.toGray := ⟨r.format_toGray, r.size_toGray⟩
  obtain ⟨e, f, hfield, hestimate⟩ := estimateGray_of_not_fallsBack hgray.1 h
  have hnone : ∀ m ∈ (none : Option Mask), m.size = r.size := fun _ hm => nomatch hm
  have hfits : e.surface.Fits r.size :=
    (estimateGray_returns hgray method.normalized hnone).of_eq_ok (hestimate none)
  have hshape := e.surface.hasShape_drawing r.toGray
  rw [r.size_toGray] at hshape
  exact ⟨e, f, _, hfield, hshape, fun mask => ⟨hestimate mask, binarize_eq_ok (hestimate mask) hfits⟩⟩

/-- A mask of another size than the page is refused where the method falls back to the histogram, and passes
unnoticed everywhere else: the field and the bilevel page are those without a mask. -/
theorem estimate_otherSize (r : Raster) (method : Method K) {m : Mask} (h : m.size ≠ r.size) :
    (FallsBack r.toGray method.normalized →
      estimate r method (some m) = .error (wrongSize r m) ∧
      binarize r method (some m) = .error (wrongSize r m)) ∧
    (¬ FallsBack r.toGray method.normalized →
      ∃ e f b, e.surface = .field f ∧ b.HasShape .bit1 r.size r.toGray.resolution ∧
        (estimate r method (some m) = .ok e ∧ binarize r method (some m) = .ok (b, e)) ∧
        (estimate r method none = .ok e ∧ binarize r method none = .ok (b, e))) := by
  constructor
  · intro hback
    have hrefused : estimate r method (some m) = .error (wrongSize r m) := by
      rw [estimate, estimateGray_of_fallsBack r.format_toGray hback,
        globalEstimate_eq_error r.format_toGray (r.size_toGray.symm ▸ h), wrongSize, r.size_toGray, wrongSize]
    refine ⟨hrefused, ?_⟩
    rw [binarize, hrefused]
    rfl
  · intro hfield
    obtain ⟨e, f, b, he, hb, hall⟩ := estimate_of_not_fallsBack hfield
    exact ⟨e, f, b, he, hb, hall (some m), hall none⟩

/-- On one row of two black pixels and a white one, a mask of one pixel is refused by the histogram method; the
Sauvola field comes out as without a mask. -/
theorem estimate_otherSize_three_pixels :
    let page := Raster.ofFn .gray8 .standard ⟨3, 1, by decide, by decide⟩ fun x _ => if x = 2 then 255 else 0
    let dot : Mask := Mask.ofFn ⟨1, 1, by decide, by decide⟩ fun _ _ => true
    let field : Estimate := .direct (.field (.ofValues 3 1 #[0, 83, 127]))
    dot.size ≠ page.size ∧
    estimate page (.otsu 0 : Method Float) (some dot) = .error (.image (.dimensionMismatch (3, 1) (1, 1))) ∧
    estimate page (.standardSauvola : Method Float) (some dot) = .ok field ∧
    estimate page (.standardSauvola : Method Float) none = .ok field := by
  intro page dot field
  have hsize : dot.size ≠ page.size := by decide
  have hsauvola : ¬ FallsBack page.toGray (.standardSauvola : Method Float).normalized := by decide +kernel
  have hvalues : estimate page (.standardSauvola : Method Float) none = .ok field := by decide +kernel
  obtain ⟨e, _, _, _, _, hmasked, hfree⟩ := (estimate_otherSize page _ hsize).2 hsauvola
  obtain rfl : e = field := Except.ok.inj (hfree.1.symm.trans hvalues)
  exact ⟨hsize, ((estimate_otherSize page (.otsu 0 : Method Float) hsize).1 trivial).1, hmasked.1, hfree.1⟩

end ScannedPage.Threshold
