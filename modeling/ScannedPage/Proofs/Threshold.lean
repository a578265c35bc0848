import ScannedPage.Proofs.Histogram
import ScannedPage.Proofs.Morphology
import ScannedPage.Threshold.Estimate

/-!
# Every method binarizes every gray page

A surface fits a size when it is one threshold or a field with one value per position of this size. Each
method gives a fitting surface for any gray page, under any mask of its size, and a fitting surface makes a
bilevel page of the same size and resolution.
-/

namespace ScannedPage.Threshold

open Morphology

/-- A gray raster is accepted. -/
theorem requireGray_eq_ok {r : Raster} (h : r.format = .gray8) : requireGray r = .ok () := if_pos h

/-- The surface belongs to pages of a size. -/
def Surface.Fits (s : Size) : Surface → Prop
  | .global _ => True
  | .field f => (f.width, f.height) = s.sides

variable {K : Type} [Scalar K] [DecidableLE K] [DecidableLT K]
variable {r : Raster} {s : Size}

/-- The bilevel page that a surface draws of a gray page. -/
def Surface.drawing (surface : Surface) (r : Raster) : Raster :=
  Raster.ofFn .bit1 r.resolution r.size fun x y => if surface.isBlack x y (r.word x y) then 1 else 0

/-- A fitting surface draws every gray page. -/
theorem Surface.binarize_eq_ok {surface : Surface} (hfits : surface.Fits s) (h : IsGray s r) :
    surface.binarize r = .ok (surface.drawing r) := by
  obtain rfl := h.2
  rw [Surface.binarize, requireGray_eq_ok h.1]
  cases surface with
  | global t => rfl
  | field f =>
    have hsides : r.checkSides (f.width, f.height) = .ok () := if_pos (Eq.symm hfits)
    simp only [hsides]
    rfl

/-- A pixel of the drawing is black where the surface says so. -/
theorem Surface.isBlack_drawing {surface : Surface} {p : Nat × Nat} (hp : r.size.Contains p.1 p.2) :
    (surface.drawing r).IsBlack p ↔ surface.isBlack p.1 p.2 (r.word p.1 p.2) = true := by
  rw [Raster.IsBlack, drawing, Raster.word_ofFn, if_pos hp]
  split <;> simp_all

/-- The drawing is a bilevel page of the size and resolution of the page. -/
theorem Surface.hasShape_drawing (surface : Surface) (r : Raster) :
    (surface.drawing r).HasShape .bit1 r.size r.resolution := by
  refine Raster.hasShape_ofFn _ _ _ fun x y => ?_
  split <;> decide

/-- A fitting surface makes a bilevel page of a gray page. -/
theorem Surface.binarize_returns {surface : Surface} (hfits : surface.Fits s) (h : IsGray s r) :
    Returns (surface.binarize r) fun b => b.HasShape .bit1 s r.resolution :=
  ⟨_, binarize_eq_ok hfits h, h.2 ▸ surface.hasShape_drawing r⟩

section Histogram

/-- A histogram exists under any mask of the size of the page. -/
theorem histogram_returns (h : IsGray s r) {mask : Option Mask} (hmask : ∀ m ∈ mask, m.size = s) :
    Returns (Histogram.ofRaster r mask) fun _ => True := by
  cases mask with
  | none => exact ⟨_, Histogram.ofRaster_none_eq_ok h.1, trivial⟩
  | some m => exact ⟨_, Histogram.ofRaster_some_eq_ok h.1 ((hmask m rfl).trans h.2.symm), trivial⟩

/-- The threshold of the histogram is a fitting surface. -/
theorem globalEstimate_returns (h : IsGray s r) {mask : Option Mask} (hmask : ∀ m ∈ mask, m.size = s)
    (adjustment : Int) : Returns (globalEstimate K r mask adjustment) fun e => e.surface.Fits s :=
  ((histogram_returns h hmask).mapError _).bind fun _ _ => returns_pure trivial

end Histogram

section Local

omit [DecidableLE K] [DecidableLT K] in
/-- Local statistics of a gray page have its size. -/
theorem localStats_returns (h : IsGray s r) (window : Window) (direct : Bool) :
    Returns (localStats r window direct) fun stats : LocalStats K => stats.size = s := by
  rw [localStats, requireGray_eq_ok h.1]
  cases direct <;> exact returns_ok h.2

omit [DecidableLE K] in
/-- A field of local statistics fits their size. -/
theorem fits_fieldOf {stats : LocalStats K} (h : stats.size = s) (adjustment : Int) (rule : Moments K → K) :
    Surface.Fits s (.field (fieldOf stats adjustment rule)) := by
  rw [← h]
  rfl

omit [DecidableLE K] in
/-- The Niblack field of a gray page fits its size. -/
theorem niblackField_returns (h : IsGray s r) (window : Window) (k : K) (adjustment : Int) :
    Returns (niblackField r window k adjustment) fun f => Surface.Fits s (.field f) :=
  (localStats_returns h window false).bind fun _ hstats => returns_pure (fits_fieldOf hstats adjustment _)

/-- A Wolf field, where there is one, fits the size of its statistics. -/
theorem fits_wolfField {stats : LocalStats K} (h : stats.size = s) {darkest : Nat} {k : K} {adjustment : Int}
    {lower upper : Nat} {f : Field} (hf : wolfField? stats darkest k adjustment lower upper = some f) :
    Surface.Fits s (.field f) := by
  rw [wolfField?] at hf
  split at hf
  · exact absurd hf (by simp)
  · rw [← Option.some.inj hf]
    exact fits_fieldOf h adjustment (wolfRule k stats.maxDeviation ((darkest : Nat) : K))

end Local

section Background

/-- The Wiener filter keeps a page gray and its size. -/
theorem wiener_returns (h : IsGray s r) (side : Nat) (noise : K) :
    Returns (wiener r side noise) (IsGray s) := by
  obtain rfl := h.2
  rw [wiener, requireGray_eq_ok h.1]
  exact (localStats_returns h _ false).bind fun stats _ => returns_pure (isGray_ofFn ..)

/-- The paper of a gray page can be reconstructed around any ink. -/
theorem reconstructPaper_returns (h : IsGray s r) (ink : Raster) :
    Returns (reconstructPaper r ink) fun grown => IsGray s grown.image := by
  obtain rfl := h.2
  refine ((invert_returns h).mapError _).bind fun inverted hinverted => ?_
  exact (reconstruct_returns (isGray_ofFn ..) hinverted .eightWay).mapError _

/-- The background method gives a fitting field if it gives one. -/
theorem gatos_returns (h : IsGray s r) (window : Window) (k scale noise : K) (adjustment : Int) :
    Returns (gatos r window k scale noise adjustment) fun result =>
      ∀ g ∈ result, Surface.Fits s (.field g.field) := by
  have hnone : ∀ g ∈ (none : Option GatosResult), Surface.Fits s (.field g.field) := fun g hg => nomatch hg
  rw [gatos, requireGray_eq_ok h.1]
  refine Returns.bind (Q := fun _ => True) (returns_ok trivial) fun _ _ => ?_
  refine (wiener_returns h wienerSide noise).bind fun filtered hfiltered => ?_
  refine (niblackField_returns hfiltered window k adjustment).bind fun field hfield => ?_
  refine (Surface.binarize_returns hfield hfiltered).bind fun ink _ => ?_
  dsimp only
  split
  · exact returns_pure hnone
  · refine Returns.bind (reconstructPaper_returns hfiltered ink) fun grown hgrown => ?_
    split
    · exact returns_pure hnone
    · refine returns_pure fun g hg => ?_
      rw [← Option.some.inj hg]
      exact congrArg Size.sides hgrown.2

end Background

/-- Every method gives a fitting surface. -/
theorem estimateGray_returns (h : IsGray s r) (method : Method K) {mask : Option Mask}
    (hmask : ∀ m ∈ mask, m.size = s) : Returns (estimateGray r method mask) fun e => e.surface.Fits s := by
  cases method with
  | otsu adjustment => exact globalEstimate_returns h hmask adjustment
  | sauvola p adjustment =>
    refine (localStats_returns h _ false).bind fun stats hstats => ?_
    split
    · exact globalEstimate_returns h hmask adjustment
    · exact returns_pure (fits_fieldOf hstats adjustment _)
  | wolf p adjustment lower upper =>
    refine (localStats_returns h _ false).bind fun stats hstats => ?_
    split
    · next field hfield => exact returns_pure (fits_wolfField hstats hfield)
    · exact globalEstimate_returns h hmask adjustment
  | gatos p scale noise adjustment =>
    refine (gatos_returns h _ p.coefficient scale noise adjustment).bind fun result hresult => ?_
    split
    · next g => exact returns_pure (hresult g rfl)
    · exact globalEstimate_returns h hmask adjustment

/-- Where the estimate fits the page, its surface draws the gray view of the page. -/
theorem binarize_eq_ok {method : Method K} {mask : Option Mask} {e : Estimate}
    (he : estimate r method mask = .ok e)
    (hfits : e.surface.Fits r.size) : binarize r method mask = .ok (e.surface.drawing r.toGray, e) := by
  have hdrawn := Surface.binarize_eq_ok hfits ⟨r.format_toGray, r.size_toGray⟩
  rw [binarize, he]
  exact congrArg (· >>= fun b => pure (b, e)) hdrawn

/-- Every method makes a bilevel page of a gray page. -/
theorem binarize_returns (h : IsGray s r) (method : Method K) {mask : Option Mask}
    (hmask : ∀ m ∈ mask, m.size = s) :
    Returns (binarize r method mask) fun result => result.1.HasShape .bit1 s r.resolution := by
  obtain rfl := h.2
  obtain ⟨e, he, hfits⟩ := estimateGray_returns ⟨r.format_toGray, r.size_toGray⟩ method.normalized hmask
  refine ⟨_, binarize_eq_ok he hfits, ?_⟩
  rw [Raster.toGray_eq_self h.1]
  exact e.surface.hasShape_drawing r

end ScannedPage.Threshold
