import ScannedPage.Proofs.Region.Picture

/-!
# How reconstructions end

A reconstruction comes to rest within its cap or is cut off exactly there (`Reconstruction.EndsBy`). Two kinds of
results rest on reconstructions and say how these ended: the picture mask of a page, which joins the opening of a
feature map and the filling of its holes, and an estimate by the background method, which reconstructs the paper
around the ink. An estimate reports its reconstruction as it ended; a picture mask has come to rest when both of
its reconstructions have, but counts the iterations of the opening alone (`Region.pictureMask_eq_ok`).
-/

namespace ScannedPage

namespace Morphology

section Growth

variable (caps : Grid Nat) (c : Connectivity)

/-- Growth ends within its fuel. -/
theorem iterations_grow_le (fuel done : Nat) (levels : Grid Nat) :
    (grow caps c fuel done levels).2.2 ≤ done + fuel := by
  induction fuel generalizing done levels with
  | zero => exact Nat.le_refl _
  | succ fuel ih =>
    simp only [grow]
    split
    · have := ih (done + 1) (iterate caps c levels).levels
      omega
    · exact Nat.add_le_add_left (Nat.le_add_left 1 fuel) done

/-- Growth that does not come to rest has used up its fuel. -/
theorem iterations_grow_of_not_rest (fuel done : Nat) (levels : Grid Nat)
    (h : (grow caps c fuel done levels).2.1 = false) : (grow caps c fuel done levels).2.2 = done + fuel := by
  induction fuel generalizing done levels with
  | zero => rfl
  | succ fuel ih =>
    simp only [grow] at h ⊢
    split at h
    · next hchanged =>
      rw [if_pos hchanged, ih _ _ h]
      omega
    · exact absurd h (by simp)

end Growth

/-- The reconstruction took no more iterations than a cap, and exactly as many if it did not come to rest. -/
def Reconstruction.EndsBy (g : Reconstruction) (limit : Nat) : Prop :=
  g.iterations ≤ limit ∧ (g.converged = false → g.iterations = limit)

/-- A reconstruction ends by its cap. -/
theorem reconstructWithin_endsBy {marker mask : Raster} {c : Connectivity} {limit : Nat} {g : Reconstruction}
    (h : reconstructWithin marker mask c limit = .ok g) : g.EndsBy limit := by
  obtain ⟨_, _, h⟩ := bind_eq_ok.mp h
  obtain ⟨_, _, h⟩ := bind_eq_ok.mp h
  obtain ⟨_, _, h⟩ := bind_eq_ok.mp h
  split at h
  · exact absurd h nofun
  · have hle := iterations_grow_le (mask.pixels.map (· % 256)) c limit 0
      (seed marker.pixels (mask.pixels.map (· % 256)))
    have hcut := iterations_grow_of_not_rest (mask.pixels.map (· % 256)) c limit 0
      (seed marker.pixels (mask.pixels.map (· % 256)))
    rw [Nat.zero_add] at hle hcut
    rw [← pure_eq_ok.mp h]
    exact ⟨hle, hcut⟩

/-- A reconstruction with the usual cap ends by the diagonal of the page. -/
theorem reconstruct_endsBy {marker mask : Raster} {c : Connectivity} {g : Reconstruction} {s : Size}
    (h : reconstruct marker mask c = .ok g) (hsize : marker.size = s) :
    g.EndsBy (iterationLimit s.width s.height) := by
  subst hsize
  exact reconstructWithin_endsBy h

/-- A filling of holes ends by the diagonal of the page. -/
theorem fillHoles_endsBy {r : Raster} {c : Connectivity} {g : Reconstruction} {s : Size}
    (h : fillHoles r c = .ok g) (hsize : r.size = s) : g.EndsBy (iterationLimit s.width s.height) := by
  obtain ⟨_, _, h⟩ := bind_eq_ok.mp h
  obtain ⟨inverted, _, h⟩ := bind_eq_ok.mp h
  obtain ⟨grown, hgrown, h⟩ := bind_eq_ok.mp h
  obtain ⟨image, _, h⟩ := bind_eq_ok.mp h
  have hends : grown.EndsBy (iterationLimit s.width s.height) := reconstruct_endsBy hgrown hsize
  rw [← pure_eq_ok.mp h]
  exact hends

end Morphology

open Morphology

namespace Region

/-- The two reconstructions behind the picture mask of a page: the opening of its feature map, and the filling of
the holes that the opening leaves. -/
def OpensAndFills (r : Raster) (opened filled : Reconstruction) : Prop :=
  ∃ stretched edges marker,
    r.toGray.stretch 0.01 0.01 = .ok stretched ∧
    gradient stretched 3 3 = .ok edges ∧
    erode (featureMap stretched edges) (elementSide r.resolution.minAxis) (elementSide r.resolution.minAxis) =
      .ok marker ∧
    reconstruct marker (featureMap stretched edges) .eightWay = .ok opened ∧
    fillHoles opened.image .eightWay = .ok filled

/-- A picture mask has come to rest when both reconstructions have, and counts the iterations of the opening. -/
theorem pictureMask_eq_ok {r : Raster} {found : PictureMask} (h : pictureMask r = .ok found) :
    ∃ opened filled, OpensAndFills r opened filled ∧
      found.converged = (opened.converged && filled.converged) ∧ found.iterations = opened.iterations := by
  obtain ⟨stretched, hstretched, h⟩ := bind_eq_ok.mp h
  obtain ⟨edges, hedges, h⟩ := bind_eq_ok.mp h
  obtain ⟨marker, hmarker, h⟩ := bind_eq_ok.mp h
  obtain ⟨opened, hopened, h⟩ := bind_eq_ok.mp h
  obtain ⟨filled, hfilled, h⟩ := bind_eq_ok.mp h
  refine ⟨opened, filled, ⟨stretched, edges, marker, ?_⟩, ?_⟩
  · exact ⟨mapError_eq_ok.mp hstretched, mapError_eq_ok.mp hedges, mapError_eq_ok.mp hmarker,
      mapError_eq_ok.mp hopened, mapError_eq_ok.mp hfilled⟩
  · rw [← pure_eq_ok.mp h]
    exact ⟨rfl, rfl⟩

/-- Both reconstructions behind a picture mask end by the diagonal of the page. -/
theorem OpensAndFills.endsBy {r : Raster} {opened filled : Reconstruction} (h : OpensAndFills r opened filled)
    (hgray : r.format = .gray8) :
    opened.EndsBy (iterationLimit r.size.width r.size.height) ∧
      filled.EndsBy (iterationLimit r.size.width r.size.height) := by
  obtain ⟨stretched, edges, marker, hstretched, hedges, hmarker, hopened, hfilled⟩ := h
  have hside := elementSide_pos r.resolution.minAxis
  have hshare := Contrast.isShare_hundredth
  rw [Raster.toGray_eq_self hgray] at hstretched
  have hs := (Raster.stretch_returns ⟨hgray, rfl⟩ hshare hshare).of_eq_ok hstretched
  have hfeature : IsGray r.size (featureMap stretched edges) := ⟨rfl, hs.2⟩
  have hm := (extremes_returns hfeature .least hside hside).of_eq_ok hmarker
  have ho := (reconstruct_returns hm.1 hfeature .eightWay).of_eq_ok hopened
  exact ⟨reconstruct_endsBy hopened hm.1.2, fillHoles_endsBy hfilled ho.2⟩

end Region

namespace Threshold

variable {K : Type} [Scalar K] [DecidableLE K] [DecidableLT K]

/-- The reconstruction that a method runs on a gray page: the paper of the filtered page around the ink that the
Niblack rule finds on it. Only the background method runs one. -/
def ReconstructsPaper (gray : Raster) (method : Method K) (grown : Reconstruction) : Prop :=
  ∃ p scale noise adjustment filtered field ink,
    method.normalized = .gatos p scale noise adjustment ∧
    wiener gray wienerSide noise = .ok filtered ∧
    niblackField filtered (.normalize p.window gray.width gray.height) p.coefficient adjustment = .ok field ∧
    (Surface.field field).binarize filtered = .ok ink ∧
    reconstructPaper filtered ink = .ok grown

/-- The threshold of a histogram rests on no reconstruction. -/
theorem globalEstimate_converged {gray : Raster} {mask : Option Mask} {adjustment : Int} {e : Estimate}
    (h : globalEstimate K gray mask adjustment = .ok e) : e.converged = true := by
  obtain ⟨_, _, h⟩ := bind_eq_ok.mp h
  rw [← pure_eq_ok.mp h]
  rfl

/-- A background field reports how the reconstruction of its paper ended. -/
theorem gatos_eq_ok {gray : Raster} {window : Window} {k scale noise : K} {adjustment : Int}
    {result : GatosResult} (h : gatos gray window k scale noise adjustment = .ok (some result)) :
    ∃ filtered field ink grown,
      wiener gray wienerSide noise = .ok filtered ∧
      niblackField filtered window k adjustment = .ok field ∧
      (Surface.field field).binarize filtered = .ok ink ∧
      reconstructPaper filtered ink = .ok grown ∧
      result.converged = grown.converged ∧ result.iterations = grown.iterations := by
  obtain ⟨_, _, h⟩ := bind_eq_ok.mp h
  obtain ⟨filtered, hfiltered, h⟩ := bind_eq_ok.mp h
  obtain ⟨field, hfield, h⟩ := bind_eq_ok.mp h
  obtain ⟨ink, hink, h⟩ := bind_eq_ok.mp h
  dsimp only at h
  split at h
  · exact absurd (pure_eq_ok.mp h) nofun
  · obtain ⟨grown, hgrown, h⟩ := bind_eq_ok.mp h
    split at h
    · exact absurd (pure_eq_ok.mp h) nofun
    · refine ⟨filtered, field, ink, grown, hfiltered, hfield, hink, hgrown, ?_⟩
      rw [← Option.some.inj (pure_eq_ok.mp h)]
      exact ⟨rfl, rfl⟩

/-- An estimate that has not come to rest reports the reconstruction that its method ran. -/
theorem estimateGray_not_converged {gray : Raster} {method : Method K} {mask : Option Mask} {e : Estimate}
    (h : estimateGray gray method.normalized mask = .ok e) (hcut : e.converged = false) :
    ∃ grown, ReconstructsPaper gray method grown ∧ grown.converged = false ∧
      e.iterations = some grown.iterations := by
  have hglobal (adjustment : Int) : globalEstimate K gray mask adjustment ≠ .ok e := fun h => by
    rw [globalEstimate_converged h] at hcut
    exact absurd hcut (by decide)
  cases hmethod : method.normalized with
  | otsu adjustment =>
    rw [hmethod] at h
    exact absurd h (hglobal adjustment)
  | sauvola p adjustment =>
    rw [hmethod] at h
    obtain ⟨stats, _, h⟩ := bind_eq_ok.mp h
    split at h
    · exact absurd h (hglobal adjustment)
    · rw [← pure_eq_ok.mp h] at hcut
      exact absurd hcut (by simp [Estimate.direct])
  | wolf p adjustment lower upper =>
    rw [hmethod] at h
    obtain ⟨stats, _, h⟩ := bind_eq_ok.mp h
    split at h
    · rw [← pure_eq_ok.mp h] at hcut
      exact absurd hcut (by simp [Estimate.direct])
    · exact absurd h (hglobal adjustment)
  | gatos p scale noise adjustment =>
    rw [hmethod] at h
    obtain ⟨result, hresult, h⟩ := bind_eq_ok.mp h
    split at h
    · next result =>
      obtain ⟨filtered, field, ink, grown, hfiltered, hfield, hink, hgrown, hconverged, hiterations⟩ :=
        gatos_eq_ok hresult
      rw [← pure_eq_ok.mp h] at hcut ⊢
      refine ⟨grown, ?_, hconverged.symm.trans hcut, congrArg some hiterations⟩
      exact ⟨p, scale, noise, adjustment, filtered, field, ink, hmethod, hfiltered, hfield, hink, hgrown⟩
    · exact absurd h (hglobal adjustment)

/-- The estimate behind a page in black and white, if it has not come to rest, reports the reconstruction of paper
that its method ran. -/
theorem binarize_not_converged {r ink : Raster} {method : Method K} {mask : Option Mask} {e : Estimate}
    (h : binarize r method mask = .ok (ink, e)) (hcut : e.converged = false) :
    ∃ grown, ReconstructsPaper r.toGray method grown ∧ grown.converged = false ∧
      e.iterations = some grown.iterations := by
  obtain ⟨estimate, hestimate, h⟩ := bind_eq_ok.mp h
  obtain ⟨_, _, h⟩ := bind_eq_ok.mp h
  obtain ⟨_, rfl⟩ := Prod.mk.inj (pure_eq_ok.mp h)
  exact estimateGray_not_converged hestimate hcut

/-- A reconstruction of paper ends by the diagonal of the page. -/
theorem ReconstructsPaper.endsBy {gray : Raster} {method : Method K} {grown : Reconstruction}
    (h : ReconstructsPaper gray method grown) (hgray : gray.format = .gray8) :
    grown.EndsBy (iterationLimit gray.size.width gray.size.height) := by
  obtain ⟨p, scale, noise, adjustment, filtered, field, ink, _, hfiltered, _, _, hgrown⟩ := h
  have hf := (wiener_returns ⟨hgray, rfl⟩ wienerSide noise).of_eq_ok hfiltered
  obtain ⟨inverted, _, hgrown⟩ := bind_eq_ok.mp hgrown
  exact reconstruct_endsBy (mapError_eq_ok.mp hgrown) hf.2

end Threshold

end ScannedPage
