import ScannedPage.Proofs.Colour
import ScannedPage.Proofs.Page.Totality

/-!
# A gray page and the same page in colour

A gray page and the same page turned into colour run alike through every step: pictures and text are looked for
on one gray image in both runs, and the images that pictures are delivered from stay the same page in gray and
in colour. So both runs end with the same fault, or with the same findings and images that agree
(`process_toRgb_alike`). Only a filled zone can tell the images apart, since a colour it is filled with has no
place on a gray page.
-/

namespace ScannedPage

open Raster (Twin)

/-- A gray page is its own base image. -/
theorem Raster.IsGrayPage.promote_eq {r : Raster} (h : r.IsGrayPage) : r.promote = r := by
  refine Raster.promote_eq_self ?_
  rw [h.format_eq]
  decide

/-- A page in colour is its own base image. -/
theorem Raster.promote_toRgb (r : Raster) : r.toRgb.promote = r.toRgb := by
  refine Raster.promote_eq_self ?_
  rw [Raster.format_toRgb]
  decide

/-- Even illumination of the channels of a page is even illumination of the gray page. -/
theorem Illumination.equalize_alike {r : Raster} (h : r.IsGrayPage) :
    Alike Twin (equalize r) (equalize r.toRgb) := by
  have hred := h.mapWords_toRgb fun v hv => Color.red_compose hv hv hv
  have hgreen := h.mapWords_toRgb fun v hv => Color.green_compose hv hv
  have hblue := h.mapWords_toRgb fun v hv => Color.blue_compose (r := v) (g := v) hv
  simp only [equalize, h.format_eq, Raster.format_toRgb, h.resolution_toRgb, hred, hgreen, hblue]
  obtain ⟨even, heven, hshape⟩ := evenChannel_returns h (backgroundSide_pos r.resolution)
  have hgray := hshape.isGrayPage
  rw [heven]
  refine .ok ⟨hgray, ?_⟩
  rw [hgray.toRgb_eq_ofFn, hshape.resolution_eq, hshape.size_eq, h.size_toRgb]
  refine Raster.ofFn_congr _ _ fun x y _ => ?_
  rw [Nat.mod_eq_of_lt (hgray.word_lt x y)]

/-- The composition of a gray base, as a page in colour, is the composition of the base in colour. -/
theorem twin_mixLayers {base : Raster} (h : base.IsGrayPage) (b : Raster) (l : Layers) :
    Twin (mixLayers base b l) (mixLayers base.toRgb b l) := by
  rw [mixLayers, mixLayers, h.format_eq, Raster.format_toRgb, h.resolution_toRgb, h.size_toRgb]
  refine Raster.IsGrayPage.twin_ofFn _ _ (fun x y => ?_) fun x y hxy => ?_
  · split
    · exact h.word_lt x y
    · split <;> decide
  · split
    · exact h.word_toRgb hxy
    · split <;> rfl

/-- What a mode delivers of a page in gray and of the same page in colour. -/
def OutputMode.Delivered (mode : OutputMode) (page page' : Raster) : Prop :=
  if mode = .blackAndWhite then page' = page else page' = page.toRgb

/-- The base of a page in gray and in colour is composed alike. -/
theorem compose_alike {base : Raster} (h : base.IsGrayPage) (bilevel : Option Raster) (l : Layers)
    (mode : OutputMode) :
    Alike mode.Delivered (compose base bilevel l mode) (compose base.toRgb bilevel l mode) := by
  simp only [compose, h.size_toRgb, h.promote_eq, Raster.promote_toRgb]
  cases mode with
  | colorOrGrayscale => exact .pure rfl
  | blackAndWhite => exact (Alike.refl _).mono fun b b' hb => hb.2
  | mixed =>
    refine (Alike.refl _).bind fun b b' hb => ?_
    obtain ⟨_, rfl⟩ := hb
    refine (Alike.refl _).bind fun _ _ _ => .pure ?_
    exact (twin_mixLayers h _ l).2

/-- Without a zone to be filled nothing is painted. -/
theorem fillZones_eq_self {zones : List Zone} (h : ∀ z ∈ zones, z.tag ≠ .fill) (r : Raster) :
    fillZones r zones = r := by
  have hnone : zones.filter (·.tag = .fill) = [] :=
    List.filter_eq_nil_iff.mpr fun z hz htag => h z hz (of_decide_eq_true htag)
  rw [fillZones, hnone]
  rfl

namespace PageSettings

variable {s : PageSettings}

/-- Resampling goes alike on a gray page and in colour; the zones are the same, with the tags in the settings. -/
theorem resample_alike {input : Raster} (h : input.IsGrayPage) :
    Alike (fun a b => Twin a.1 b.1 ∧ b.2 = a.2 ∧ ∀ z ∈ a.2, ∃ z' ∈ s.zones, z'.tag = z.tag)
      (s.resample input) (s.resample input.toRgb) := by
  rw [resample, resample, h.resolution_toRgb, h.width_toRgb, h.height_toRgb]
  cases s.targetResolution with
  | none => exact .pure ⟨⟨h, rfl⟩, rfl, fun z hz => ⟨z, hz, rfl⟩⟩
  | some target =>
    dsimp only
    split
    · exact .pure ⟨⟨h, rfl⟩, rfl, fun z hz => ⟨z, hz, rfl⟩⟩
    · refine ((h.scaleToResolution_alike target).mapError _).bind fun scaled colour htwin => ?_
      obtain ⟨hscaled, rfl⟩ := htwin
      rw [hscaled.width_toRgb, hscaled.height_toRgb]
      refine .pure ⟨⟨hscaled, rfl⟩, rfl, fun z hz => ?_⟩
      obtain ⟨z', hz', rfl⟩ := List.mem_map.mp hz
      exact ⟨z', hz', rfl⟩

/-- The working copies of a gray page and of the page in colour differ in the colour of the base only. -/
theorem workingCopies_alike {source : Raster} (h : source.IsGrayPage) :
    Alike (fun a b => Twin a.value.base b.value.base ∧ b.value.gray = a.value.gray)
      (s.workingCopies source) (s.workingCopies source.toRgb) := by
  simp only [workingCopies, h.promote_eq, Raster.promote_toRgb, h.toGray_toRgb,
    Raster.toGray_eq_self h.format_eq]
  split
  · refine (Illumination.equalize_alike h).bind fun base base' htwin => ?_
    obtain ⟨hbase, rfl⟩ := htwin
    refine .pure ⟨⟨hbase, rfl⟩, ?_⟩
    exact hbase.toGray_toRgb.trans (Raster.toGray_eq_self hbase.format_eq).symm
  · split
    · refine (Alike.refl _).bind fun even even' heven => ?_
      exact .pure ⟨⟨h, rfl⟩, heven.2⟩
    · exact .pure ⟨⟨h, rfl⟩, rfl⟩

/-- The output of a gray page and that of the same page in colour: one set of findings, one black and white
page, and else, unless zones are filled, the same page in gray and in colour. -/
structure SameInColour (s : PageSettings) (gray colour : PageOutput) : Prop where
  pictureZones_eq : colour.pictureZones = gray.pictureZones
  despeckle_eq : colour.despeckle = gray.despeckle
  warnings_eq : colour.warnings = gray.warnings
  image_eq : s.outputMode = .blackAndWhite → colour.image = gray.image
  image_eq_toRgb : s.outputMode ≠ .blackAndWhite → (∀ z ∈ s.zones, z.tag ≠ .fill) →
    colour.image = gray.image.toRgb

/-- A gray page in range and the same page in colour end alike under settings with every value in range. -/
theorem processNormalized_toRgb_alike {input : Raster} (h : input.IsGrayPage) :
    Alike s.SameInColour (s.processNormalized input) (s.processNormalized input.toRgb) := by
  refine (resample_alike h).bind fun ⟨source, zones⟩ ⟨source', zones'⟩ ⟨⟨hsource, hsource'⟩, hzones, htags⟩ => ?_
  dsimp only at hsource hsource' hzones htags
  subst hsource' hzones
  refine (workingCopies_alike hsource).bind fun copies copies' ⟨⟨hbase, hbase'⟩, hgray⟩ => ?_
  rw [hbase', hgray]
  refine (Alike.refl _).bind fun found found' ⟨_, hfound⟩ => ?_
  subst hfound
  refine (Alike.refl _).bind fun parts parts' ⟨_, hparts⟩ => ?_
  subst hparts
  refine (compose_alike hbase _ _ _).bind fun page page' hpage => .pure ?_
  rw [OutputMode.Delivered] at hpage
  refine ⟨rfl, rfl, rfl, fun hmode => ?_, fun hmode hfill => ?_⟩
  · rw [if_pos hmode] at hpage
    rw [hpage]
  · rw [if_neg hmode] at hpage
    have hnone : ∀ z ∈ (Zone.sift zones').1, z.tag ≠ .fill := fun z hz => by
      obtain ⟨z', hz', htag⟩ := htags z (List.mem_filter.mp hz).1
      exact htag ▸ hfill z' hz'
    rw [hpage]
    exact (fillZones_eq_self hnone _).trans (congrArg Raster.toRgb (fillZones_eq_self hnone page).symm)

/-- A gray page in range and the same page in colour end with the same fault, or with outputs that agree. -/
theorem process_toRgb_alike (s : PageSettings) (g : Raster) (hformat : g.format = .gray8) (hin : g.InRange)
    (cancelled : Bool) : Alike s.SameInColour (s.process g cancelled) (s.process g.toRgb cancelled) := by
  have h : g.IsGrayPage := by
    rw [Raster.IsGrayPage, ← hformat]
    exact hin.hasShape
  refine (Alike.refl (checkpoint cancelled)).bind fun _ _ _ => ?_
  exact (processNormalized_toRgb_alike h).mono fun gray colour hsame =>
    ⟨hsame.pictureZones_eq, hsame.despeckle_eq, hsame.warnings_eq, hsame.image_eq, hsame.image_eq_toRgb⟩

/-- A dark and a light pixel on a mixed page, evenly lit and at twice their resolution, come out alike in gray and
in colour. -/
theorem process_toRgb_dark_light :
    ∃ gray colour,
      process { outputMode := .mixed, targetResolution := some (.uniform 600), normalizeIllumination := true }
        ⟨.gray8, .uniform 300, Grid.ofFn ⟨2, 1, by decide, by decide⟩ fun x _ => 200 * x⟩ false = .ok gray ∧
      process { outputMode := .mixed, targetResolution := some (.uniform 600), normalizeIllumination := true }
        (Raster.toRgb ⟨.gray8, .uniform 300, Grid.ofFn ⟨2, 1, by decide, by decide⟩ fun x _ => 200 * x⟩) false =
          .ok colour ∧
      colour.warnings = gray.warnings ∧ colour.image = gray.image.toRgb := by
  have hin : Raster.InRange ⟨.gray8, .uniform 300, Grid.ofFn ⟨2, 1, by decide, by decide⟩ fun x _ => 200 * x⟩ := by
    decide
  obtain ⟨gray, hgray, _⟩ := processNormalized_returns
    (s := { outputMode := .mixed, targetResolution := some (.uniform 600), normalizeIllumination := true }) hin
    nofun
    (fun target htarget _ => by
      obtain rfl : Resolution.uniform 600 = target := Option.some.inj htarget
      decide)
    (fun target ⟨_, _, hzero⟩ => absurd hzero (by decide))
  rw [← process_false] at hgray
  obtain ⟨colour, hcolour, hsame⟩ := (process_toRgb_alike
    { outputMode := .mixed, targetResolution := some (.uniform 600), normalizeIllumination := true } _ rfl hin
    false).exists_ok hgray
  exact ⟨gray, colour, hgray, hcolour, hsame.warnings_eq, hsame.image_eq_toRgb (by decide) nofun⟩

end PageSettings

end ScannedPage
