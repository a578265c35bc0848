import Mathlib.Algebra.Group.Nat.Even
import Mathlib.Order.Bounds.Image
import ScannedPage.Proofs.Morphology.Extremes
import ScannedPage.Proofs.Morphology.Filling

/-!
# Laws of window extremes

Inversion exchanges the two ends of the order, so the extremes of an inverted page are the inverses of the opposite
extremes (`extremes_invert`). Extremes taken one after the other are the extremes over one window, since the
windows around the positions of a window make up a window themselves (`biUnion_spanAround`). It is as long as both
together less the pixel that they share, and it is centred like them unless both lengths are even: two even windows
reach one pixel further back than forth each, and no window of an odd length does. The border takes nothing away,
because a position that a clipped window lacks is never the only one that leads to a pixel of the image.
-/

namespace ScannedPage.Morphology

/-- The other end of the order. -/
def Extreme.opposite : Extreme → Extreme
  | least => greatest
  | greatest => least

/-- The other end of the other end is the end itself. -/
@[simp] theorem Extreme.opposite_opposite (op : Extreme) : op.opposite.opposite = op := by
  cases op <;> rfl

section Extremes

variable {op : Extreme} {S : Set Nat} {a b : Nat}

/-- A set has one extreme of a kind. -/
theorem IsExtreme.unique (ha : IsExtreme op S a) (hb : IsExtreme op S b) : a = b := by
  cases op
  · exact IsLeast.unique ha hb
  · exact IsGreatest.unique ha hb

/-- The inverse of an extreme is the opposite extreme of the inverses. -/
theorem IsExtreme.inverse (h : IsExtreme op S a) : IsExtreme op.opposite ((255 - ·) '' S) (255 - a) := by
  have hanti : Antitone (255 - · : Nat → Nat) := fun _ _ hle => Nat.sub_le_sub_left hle 255
  cases op
  · exact hanti.map_isLeast h
  · exact hanti.map_isGreatest h

end Extremes

section Windows

/-- The spans around the positions of a span make up the span of both lengths together. -/
theorem biUnion_spanAround {first second n i : Nat} (hfirst : 0 < first) (hsecond : 0 < second)
    (hparity : ¬ (Even first ∧ Even second)) (hi : i < n) :
    ⋃ j ∈ spanAround second n i, spanAround first n j = spanAround (first + second - 1) n i := by
  rw [Nat.even_iff, Nat.even_iff] at hparity
  ext k
  simp only [Set.mem_iUnion₂, exists_prop, spanAround, Set.mem_ofPred_eq]
  constructor
  · rintro ⟨j, ⟨_, hij, hji⟩, hk, hjk, hkj⟩
    omega
  · rintro ⟨hk, hik, hki⟩
    -- the first position of the outer span that the inner one still reaches `k` from
    refine ⟨max (i - second / 2) (k + first / 2 + 1 - first), ⟨?_, ?_, ?_⟩, hk, ?_, ?_⟩ <;> omega

/-- The windows around the positions of a window make up the window of both sides together along each axis. -/
theorem biUnion_windowAround {s : Size} {width height width' height' : Nat} (hwidth : 0 < width)
    (hheight : 0 < height)
    (hwidth' : 0 < width') (hheight' : 0 < height') (hcolumns : ¬ (Even width ∧ Even width'))
    (hrows : ¬ (Even height ∧ Even height')) {p : Nat × Nat} (hp : s.Contains p.1 p.2) :
    ⋃ q ∈ windowAround s width' height' p, windowAround s width height q =
      windowAround s (width + width' - 1) (height + height' - 1) p := by
  ext k
  rw [mem_windowAround_iff, ← biUnion_spanAround hwidth hwidth' hcolumns hp.1,
    ← biUnion_spanAround hheight hheight' hrows hp.2]
  simp only [Set.mem_iUnion₂, exists_prop, mem_windowAround_iff]
  constructor
  · rintro ⟨q, ⟨hx, hy⟩, hkx, hky⟩
    exact ⟨⟨q.1, hx, hkx⟩, q.2, hy, hky⟩
  · rintro ⟨⟨x, hx, hkx⟩, y, hy, hky⟩
    exact ⟨(x, y), ⟨hx, hy⟩, hkx, hky⟩

end Windows

section Pages

variable {r : Raster} {s : Size} {d : Resolution} {width height width' height' : Nat}

/-- The extremes of the inverse of a page are the inverses of the opposite extremes of the page. -/
theorem extremes_invert (op : Extreme) (h : r.HasShape .gray8 s d) (hwidth : 0 < width) (hheight : 0 < height) :
    ∃ inverse opposite image, r.invert = .ok inverse ∧ extremes op.opposite r width height = .ok opposite ∧
      extremes op inverse width height = .ok image ∧ opposite.invert = .ok image ∧
      ∀ p, s.Contains p.1 p.2 →
        IsExtreme op (inverse.level '' windowAround s width height p) (image.word p.1 p.2) := by
  obtain ⟨inverse, hinverse, hinverseShape, hlevel⟩ := h.invert
  obtain ⟨opposite, hopposite, hoppositeShape, hoppositeAt⟩ :=
    extremes_over_window op.opposite ⟨h.format_eq, h.size_eq⟩ hwidth hheight
  obtain ⟨image, himage, himageShape, himageAt⟩ :=
    extremes_over_window op ⟨hinverseShape.format_eq, hinverseShape.size_eq⟩ hwidth hheight
  obtain ⟨turned, hturned, hturnedShape, hturnedLevel⟩ := hoppositeShape.invert
  rw [hinverseShape.resolution_eq, ← h.resolution_eq] at himageShape
  refine ⟨inverse, opposite, image, hinverse, hopposite, himage, ?_, himageAt⟩
  rw [hturned, hturnedShape.ext_level himageShape fun p hp => ?_]
  have hlevels : inverse.level '' windowAround s width height p =
      (255 - ·) '' (r.level '' windowAround s width height p) := by
    rw [Set.image_image]
    exact Set.image_congr fun q hq => hlevel q hq.1
  have hinverseAt := (hoppositeAt p hp).inverse
  rw [op.opposite_opposite, ← hlevels] at hinverseAt
  rw [hturnedLevel p hp, hoppositeShape.level_eq, himageShape.level_eq]
  exact hinverseAt.unique (himageAt p hp)

/-- Extremes over two windows in a row are the extremes over one window, and it is the window of both together. -/
theorem extremes_extremes (op : Extreme) (h : IsGray s r) (hwidth : 0 < width) (hheight : 0 < height)
    (hwidth' : 0 < width') (hheight' : 0 < height') (hcolumns : ¬ (Even width ∧ Even width'))
    (hrows : ¬ (Even height ∧ Even height')) :
    ∃ first image, extremes op r width height = .ok first ∧ extremes op first width' height' = .ok image ∧
      extremes op r (width + width' - 1) (height + height' - 1) = .ok image ∧
      ∀ p, s.Contains p.1 p.2 →
        IsExtreme op (r.level '' windowAround s (width + width' - 1) (height + height' - 1) p)
          (image.word p.1 p.2) := by
  obtain ⟨first, hfirst, hfirstShape, hfirstAt⟩ := extremes_over_window op h hwidth hheight
  obtain ⟨image, himage, himageShape, himageAt⟩ :=
    extremes_over_window op ⟨hfirstShape.format_eq, hfirstShape.size_eq⟩ hwidth' hheight'
  obtain ⟨once, honce, honceShape, honceAt⟩ :=
    extremes_over_window op h (by omega : 0 < width + width' - 1) (by omega : 0 < height + height' - 1)
  rw [hfirstShape.resolution_eq] at himageShape
  have hboth (p : Nat × Nat) (hp : s.Contains p.1 p.2) :
      IsExtreme op (r.level '' windowAround s (width + width' - 1) (height + height' - 1) p)
        (image.word p.1 p.2) := by
    rw [← biUnion_windowAround hwidth hheight hwidth' hheight' hcolumns hrows hp, Set.image_iUnion₂]
    refine (himageAt p hp).iUnion fun q hq => ?_
    rw [hfirstShape.level_eq]
    exact hfirstAt q hq.1
  refine ⟨first, image, hfirst, himage, ?_, hboth⟩
  rw [honce, honceShape.ext_level himageShape fun p hp => ?_]
  rw [honceShape.level_eq, himageShape.level_eq]
  exact (honceAt p hp).unique (hboth p hp)

end Pages

/-- The laws of erosion and dilation over windows of at least one pixel. The erosion of an inverted page is its
inverted dilation. Two erosions, and two dilations, are one over the window that is as long as both less one,
unless both windows are even along an axis, and that holds of every pixel however much the border clips. -/
theorem erode_dilate_laws {r : Raster} (hgray : r.format = .gray8) :
    (r.InRange → ∀ width height, 0 < width → 0 < height → ∃ inverse high low, r.invert = .ok inverse ∧
      dilate r width height = .ok high ∧ erode inverse width height = .ok low ∧ high.invert = .ok low ∧
      ∀ p, r.size.Contains p.1 p.2 →
        IsLeast (inverse.level '' windowAround r.size width height p) (low.word p.1 p.2)) ∧
    ∀ width height width' height', 0 < width → 0 < height → 0 < width' → 0 < height' →
      ¬ (Even width ∧ Even width') → ¬ (Even height ∧ Even height') →
      (∃ first low, erode r width height = .ok first ∧ erode first width' height' = .ok low ∧
        erode r (width + width' - 1) (height + height' - 1) = .ok low ∧
        ∀ p, r.size.Contains p.1 p.2 →
          IsLeast (r.level '' windowAround r.size (width + width' - 1) (height + height' - 1) p)
            (low.word p.1 p.2)) ∧
      ∃ first high, dilate r width height = .ok first ∧ dilate first width' height' = .ok high ∧
        dilate r (width + width' - 1) (height + height' - 1) = .ok high ∧
        ∀ p, r.size.Contains p.1 p.2 →
          IsGreatest (r.level '' windowAround r.size (width + width' - 1) (height + height' - 1) p)
            (high.word p.1 p.2) := by
  refine ⟨fun hin width height hwidth hheight => ?_,
    fun width height width' height' hwidth hheight hwidth' hheight' hcolumns hrows => ⟨?_, ?_⟩⟩
  · have hshape := hin.hasShape
    rw [hgray] at hshape
    exact extremes_invert .least hshape hwidth hheight
  · exact extremes_extremes .least ⟨hgray, rfl⟩ hwidth hheight hwidth' hheight' hcolumns hrows
  · exact extremes_extremes .greatest ⟨hgray, rfl⟩ hwidth hheight hwidth' hheight' hcolumns hrows

/-- On three columns, windows of two and of three columns make up one of four, which begins two columns before the
pixel and is clipped everywhere. -/
theorem erode_dilate_laws_three_columns :
    let page : Raster := ⟨.gray8, .standard, ⟨⟨3, 2, by decide, by decide⟩, #[10, 200, 30, 40, 50, 250], rfl⟩⟩
    (∃ inverse high low, page.invert = .ok inverse ∧ dilate page 2 1 = .ok high ∧ erode inverse 2 1 = .ok low ∧
      high.invert = .ok low ∧ high.words = #[10, 200, 200, 40, 50, 250] ∧
        low.words = #[245, 55, 55, 215, 205, 5]) ∧
    (∃ first low, erode page 2 1 = .ok first ∧ erode first 3 2 = .ok low ∧ erode page 4 2 = .ok low ∧
      low.words = #[10, 10, 10, 10, 10, 10]) ∧
    ∃ first high, dilate page 2 1 = .ok first ∧ dilate first 3 2 = .ok high ∧ dilate page 4 2 = .ok high ∧
      high.words = #[200, 200, 200, 200, 250, 250] := by
  intro page
  obtain ⟨hinversion, htwice⟩ := erode_dilate_laws (r := page) rfl
  obtain ⟨inverse, high, low, hinverse, hhigh, hlow, hturned, _⟩ :=
    hinversion (by decide) 2 1 (by decide) (by decide)
  obtain ⟨⟨first, twice, hfirst, htwiceLow, honceLow, _⟩, first', twice', hfirst', htwiceHigh, honceHigh, _⟩ :=
    htwice 2 1 3 2 (by decide) (by decide) (by decide) (by decide) (by decide) (by decide)
  refine ⟨⟨inverse, high, low, hinverse, hhigh, hlow, hturned, ?_, ?_⟩,
    ⟨first, twice, hfirst, htwiceLow, honceLow, ?_⟩, first', twice', hfirst', htwiceHigh, honceHigh, ?_⟩
  · rw [← Except.ok.inj hhigh]
    decide +kernel
  · obtain rfl := Except.ok.inj hinverse
    rw [← Except.ok.inj hlow]
    decide +kernel
  · rw [← Except.ok.inj honceLow]
    decide +kernel
  · rw [← Except.ok.inj honceHigh]
    decide +kernel

/-- Two windows of two columns each reach two columns back and none forth, other than a window of three. -/
example :
    let row : Raster := ⟨.gray8, .standard, ⟨⟨3, 1, by decide, by decide⟩, #[90, 80, 70], rfl⟩⟩
    (erode row 2 1 >>= (erode · 2 1)).toOption.map Raster.words = some #[90, 80, 70] ∧
      (erode row 3 1).toOption.map Raster.words = some #[80, 70, 70] := by
  decide +kernel

end ScannedPage.Morphology
