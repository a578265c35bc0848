import ScannedPage.Proofs.Threshold
import ScannedPage.Region.Despeckle
import ScannedPage.Region.Picture

/-!
# Detection and despeckling are never refused

Any gray page has a picture mask of its size, any mask has picture rectangles at a sensitivity in range, and
any bilevel page can be despeckled without a change of its shape.
-/

namespace ScannedPage

open Morphology

/-- The shares that detection lets saturate are shares. -/
theorem Contrast.isShare_hundredth : Contrast.isShare (0.01 : Float) = true := by decide +kernel

/-- A stretched page is a gray page of the same size. -/
theorem Raster.stretch_returns {r : Raster} {s : Size} (h : IsGray s r) {black white : Float}
    (hblack : Contrast.isShare black = true) (hwhite : Contrast.isShare white = true) :
    Returns (r.stretch black white) (IsGray s) := by
  simp only [Raster.stretch, requireFormat_eq_ok h.1, hblack, hwhite, Bool.and_self, if_true]
  refine Returns.bind (Q := fun _ => True) (returns_ok trivial) fun _ _ => ?_
  have hnone : ∀ m ∈ (none : Option Mask), m.size = s := nofun
  refine (Threshold.histogram_returns h hnone).bind fun histogram _ => returns_pure ?_
  simp only [Contrast.apply]
  split
  · exact h
  · exact ⟨rfl, h.2⟩

/-- Setting a rectangle keeps the size of a mask. -/
theorem Mask.size_fillRect (m : Mask) (r : Rect) (value : Bool) : (m.fillRect r value).size = m.size := by
  rw [fillRect]
  split <;> rfl

namespace Region

/-- A raster of the needed format is accepted. -/
theorem require_eq_ok {r : Raster} {f : PixelFormat} (h : r.format = f) : require f r = .ok () := if_pos h

/-- Window sides are at least three pixels. -/
theorem elementSide_pos (dots : Nat) : 0 < elementSide dots :=
  Nat.lt_of_lt_of_le (by decide) (Nat.le_max_right _ 3)

/-- Any gray page has a picture mask. -/
theorem pictureMask_returns {r : Raster} {s : Size} (h : IsGray s r) :
    Returns (pictureMask r) fun found => found.mask.size = s := by
  have hside := elementSide_pos r.resolution.minAxis
  have hshare := Contrast.isShare_hundredth
  rw [pictureMask, Raster.toGray_eq_self h.1]
  refine ((Raster.stretch_returns h hshare hshare).mapError _).bind fun stretched hstretched => ?_
  obtain rfl := hstretched.2
  refine ((gradient_returns hstretched (by decide) (by decide)).mapError _).bind fun edges _ => ?_
  have hfeature : IsGray stretched.size (featureMap stretched edges) := isGray_ofFn ..
  refine ((extremes_returns hfeature .least hside hside).mapError _).bind fun marker hmarker => ?_
  refine ((reconstruct_returns hmarker.1 hfeature .eightWay).mapError _).bind fun opened hopened => ?_
  refine ((fillHoles_returns hopened .eightWay).mapError _).bind fun filled hfilled => ?_
  exact returns_pure hfilled.2

/-- Any mask has picture rectangles at a sensitivity in range. -/
theorem detect_returns (m : Mask) {sensitivity : Nat} (h : sensitivity ≤ fullSensitivity) :
    Returns (detect m sensitivity) fun _ => True := by
  simp only [detect, Nat.not_lt_of_le h, if_false]
  split <;> exact returns_pure trivial

/-- The mask of some rectangles has the sides that were asked for. -/
theorem rectsToMask_returns (rects : List Rect) (s : Size) :
    Returns (rectsToMask rects s.width s.height) fun m => m.size = s := by
  have hfold (m : Mask) : (rects.foldl (fun m r => Mask.fillRect m r true) m).size = m.size := by
    induction rects generalizing m with
    | nil => rfl
    | cons r rects ih => rw [List.foldl_cons, ih, Mask.size_fillRect]
  rw [rectsToMask, Size.ofSides_sides]
  exact returns_ok (hfold (Mask.empty s))

/-- Any bilevel page can be labelled. -/
theorem labelBilevel_returns {r : Raster} (h : r.format = .bit1) (c : Connectivity) :
    Returns (labelBilevel r c) fun _ => True := by
  rw [labelBilevel, require_eq_ok h]
  exact ((Raster.toMask_returns h).mapError _).bind fun m _ => returns_pure trivial

/-- Despeckling keeps the shape of a bilevel page. -/
theorem despeckle_returns {r : Raster} {s : Size} {p : Resolution} (h : r.HasShape .bit1 s p)
    (policy : DespecklePolicy) (resolution : Resolution) :
    Returns (despeckle r policy resolution) fun result => result.1.HasShape .bit1 s p := by
  obtain rfl := h.size_eq
  obtain rfl := h.resolution_eq
  simp only [despeckle, require_eq_ok h.format_eq]
  refine Returns.bind (Q := fun _ => True) (returns_ok trivial) fun _ _ => ?_
  split
  · exact returns_pure h
  · next threshold _ =>
    refine (labelBilevel_returns h.format_eq .eightWay).bind fun labeling _ => returns_pure ?_
    refine Raster.hasShape_ofFn _ _ _ fun x y => ?_
    split
    · exact Nat.zero_le _
    · exact h.word_le x y

end Region

end ScannedPage
