import ScannedPage.Proofs.Page.Totality
import ScannedPage.Proofs.Page.Zones

/-!
# What a mixed page shows

Read back from a finished mixed page: its layers are what the zones leave of some earlier layers, so at a
pixel that is not filled the zones covering it decide between the base image and pure black or white.
-/

namespace ScannedPage

namespace Illumination

/-- A channel with even illumination is gray. -/
theorem evenChannel_eq_ok {r even : Raster} {side : Nat} (h : evenChannel r side = .ok even) :
    even.format = .gray8 := by
  obtain ⟨paper, _, heven⟩ := bind_eq_ok.mp h
  exact pure_eq_ok.mp heven ▸ rfl

/-- Even illumination keeps the format of a page. -/
theorem format_equalize {r even : Raster} (h : equalize r = .ok even) : even.format = r.format := by
  simp only [equalize] at h
  split at h
  · exact pure_eq_ok.mp h ▸ rfl
  · next hformat => exact (evenChannel_eq_ok h).trans hformat.symm
  · next hformat =>
    obtain ⟨red, _, h⟩ := bind_eq_ok.mp h
    obtain ⟨green, _, h⟩ := bind_eq_ok.mp h
    obtain ⟨blue, _, h⟩ := bind_eq_ok.mp h
    exact pure_eq_ok.mp h ▸ hformat.symm

end Illumination

/-- A base image can hold a picture. -/
theorem Raster.format_promote_ne (r : Raster) : r.promote.format ≠ .bit1 := by
  rw [promote]
  split
  · rw [format_toGray]
    decide
  · assumption

/-- Layers that zones were applied to are what the zones leave of them, one after the other. -/
theorem Layers.applyZones_eq_ok {l l' : Layers} {zones : List Zone} (h : l.applyZones zones = .ok l') :
    l' = zones.foldl applyZone l := by
  obtain ⟨_, _, h⟩ := bind_eq_ok.mp h
  exact (pure_eq_ok.mp h).symm

/-- A layer accepted for some sides has these sides. -/
theorem Layers.size_of_checkSides {l : Layers} {size : Size} {done : Unit}
    (h : l.checkSides size.sides = .ok done) :
    l.size = size := by
  obtain ⟨_, hauto, _⟩ := bind_eq_ok.mp h
  rw [checkLayer] at hauto
  split at hauto
  · next hsides => exact Size.eq_of_sides_eq hsides
  · exact absurd hauto nofun

/-- A mixed page shows the base or the black or white of some binarization, as the layers say. -/
theorem compose_mixed_eq_ok {base page : Raster} {bilevel : Option Raster} {l : Layers}
    (hbase : base.format ≠ .bit1) (h : compose base bilevel l .mixed = .ok page) :
    l.size = base.size ∧ ∃ b, page = mixLayers base b l := by
  obtain ⟨b, _, h⟩ := bind_eq_ok.mp h
  obtain ⟨_, hsides, h⟩ := bind_eq_ok.mp h
  refine ⟨Layers.size_of_checkSides hsides, b, ?_⟩
  rw [← pure_eq_ok.mp h, Raster.promote_eq_self hbase]

/-- A mixed page reads the base where a layer selects it, and black or white elsewhere. -/
theorem word_mixLayers {base b : Raster} {l : Layers} {x y : Nat} (hxy : base.size.Contains x y) :
    (mixLayers base b l).word x y = if l.selects x y then base.word x y
      else if b.word x y != 0 then base.format.blackWord else base.format.whiteWord := by
  rw [mixLayers, Raster.word_ofFn, if_pos hxy]

namespace PageSettings

variable {s : PageSettings}

/-- The image that pictures are delivered from: the source, bilevel as gray, and evenly lit on request. -/
def baseImage (s : PageSettings) (source : Raster) : Except PageError Raster :=
  if s.normalizeIllumination then Illumination.equalize source.promote else .ok source.promote

/-- The first of the working copies is the base image. -/
theorem workingCopies_eq_ok {source : Raster} {copies : Traced WorkingCopies}
    (h : s.workingCopies source = .ok copies) :
    s.baseImage source = .ok copies.value.base := by
  rw [workingCopies] at h
  rw [baseImage]
  split at h
  · next hlit =>
    obtain ⟨base, hbase, h⟩ := bind_eq_ok.mp h
    rw [if_pos hlit, hbase, ← pure_eq_ok.mp h]
  · next hlit =>
    rw [if_neg hlit]
    split at h
    · obtain ⟨gray, _, h⟩ := bind_eq_ok.mp h
      rw [← pure_eq_ok.mp h]
    · rw [← pure_eq_ok.mp h]

/-- A base image is never bilevel. -/
theorem format_baseImage_ne {source base : Raster} (h : s.baseImage source = .ok base) :
    base.format ≠ .bit1 := by
  rw [baseImage] at h
  split at h
  · rw [Illumination.format_equalize h]
    exact source.format_promote_ne
  · exact Except.ok.inj h ▸ source.format_promote_ne

/-- The image that a page is searched on is gray. -/
theorem format_workingCopies_gray {source : Raster} {copies : Traced WorkingCopies}
    (h : s.workingCopies source = .ok copies) : copies.value.gray.format = .gray8 := by
  rw [workingCopies] at h
  split at h
  · obtain ⟨base, _, h⟩ := bind_eq_ok.mp h
    exact pure_eq_ok.mp h ▸ base.format_toGray
  · split at h
    · obtain ⟨gray, hgray, h⟩ := bind_eq_ok.mp h
      exact pure_eq_ok.mp h ▸ (Illumination.format_equalize hgray).trans (Raster.format_toGray _)
    · exact pure_eq_ok.mp h ▸ Raster.format_toGray _

/-- The layers that pictures are kept by have seen all zones. -/
theorem pictures_eq_ok {gray : Raster} {zones : List Zone} {found : Traced Pictures}
    (hmode : s.outputMode = .mixed) (h : s.pictures gray zones = .ok found) :
    ∃ l, found.value.layers = zones.foldl Layers.applyZone l := by
  rw [pictures, if_pos hmode] at h
  obtain ⟨detected, _, h⟩ := bind_eq_ok.mp h
  obtain ⟨layers, hlayers, h⟩ := bind_eq_ok.mp h
  refine ⟨detected.value.layers, ?_⟩
  rw [← pure_eq_ok.mp h]
  exact Layers.applyZones_eq_ok hlayers

/-- The layers with the foreground are those before, or have seen all zones. -/
theorem foreground_eq_ok {gray text : Raster} {zones : List Zone} {layers : Layers} {area : Option Mask}
    {front : Traced Layers} (h : s.foreground gray zones layers area text = .ok front) :
    front.value = layers ∨ ∃ l, front.value = zones.foldl Layers.applyZone l := by
  rw [foreground] at h
  split at h
  · obtain ⟨ink, _, h⟩ := bind_eq_ok.mp h
    obtain ⟨mask, _, h⟩ := bind_eq_ok.mp h
    obtain ⟨layers', hlayers, h⟩ := bind_eq_ok.mp h
    refine Or.inr ⟨{ layers with foreground := some mask }, ?_⟩
    rw [← pure_eq_ok.mp h]
    exact Layers.applyZones_eq_ok hlayers
  · exact Or.inl (pure_eq_ok.mp h ▸ rfl)

/-- The final layers of a mixed page have seen all zones. -/
theorem separate_eq_ok {gray : Raster} {zones : List Zone} {found : Traced Pictures} {parts : Traced Separation}
    (hmode : s.outputMode = .mixed) (hfound : s.pictures gray zones = .ok found)
    (h : s.separate gray zones found.value.layers = .ok parts) :
    ∃ l, parts.value.layers = zones.foldl Layers.applyZone l := by
  have hbinarizes : s.outputMode.binarizes = true := by rw [hmode]; rfl
  rw [separate_eq, if_pos hbinarizes] at h
  obtain ⟨area, _, h⟩ := bind_eq_ok.mp h
  obtain ⟨text, _, h⟩ := bind_eq_ok.mp h
  obtain ⟨front, hfront, h⟩ := bind_eq_ok.mp h
  rw [← pure_eq_ok.mp h]
  rcases foreground_eq_ok hfront with heq | hseen
  · obtain ⟨l, hl⟩ := pictures_eq_ok hmode hfound
    exact ⟨l, heq.trans hl⟩
  · exact hseen

/-- The final layers of a mixed page are what its zones leave of some layers of its size. -/
theorem Run.exists_layers {input : Raster} (run : s.Run input) (hmode : s.outputMode = .mixed) :
    ∃ l, l.size = run.base.size ∧ run.layers = run.zones.foldl Layers.applyZone l := by
  obtain ⟨l, hl⟩ := PageSettings.separate_eq_ok hmode run.pictures_eq run.separate_eq
  refine ⟨l, ?_, hl⟩
  have hcompose := run.compose_eq
  rw [hmode] at hcompose
  have hformat := format_baseImage_ne (workingCopies_eq_ok run.workingCopies_eq)
  rw [← Layers.size_foldl l run.zones]
  exact hl ▸ (compose_mixed_eq_ok hformat hcompose).1

/-- What a pixel of a mixed page shows, for zones that are usable, a base image and a page made from it: the
base or pure black or white unless the pixel is filled; the base where the last zone for pictures adds it;
and black or white where a zone takes it out of every layer and none adds it afterwards. -/
structure ShowsZones (zones : List Zone) (base page : Raster) (x y : Nat) : Prop where
  base_or_ink : page.word x y = base.word x y ∨ page.word x y = base.format.blackWord ∨
    page.word x y = base.format.whiteWord
  added : Zone.lastPictureTag? zones base.size x y = some .pictureAdd → page.word x y = base.word x y
  subtracted : ∀ before z after, zones = before ++ z :: after → z.tag = .pictureSubtractAll →
    z.Covers base.size x y → (∀ z' ∈ after, z'.tag = .pictureAdd → ¬ z'.Covers base.size x y) →
    page.word x y = base.format.blackWord ∨ page.word x y = base.format.whiteWord

/-- Layers that have seen all zones show them. -/
theorem showsZones_mixLayers {zones : List Zone} {base b : Raster} {l : Layers} (hsize : l.size = base.size)
    {x y : Nat} (hxy : base.size.Contains x y) :
    ShowsZones zones base (mixLayers base b (zones.foldl Layers.applyZone l)) x y := by
  refine ⟨?_, fun hadd => ?_, fun before z after hzones htag hcover hafter => ?_⟩
  · rw [word_mixLayers hxy]
    split
    · exact Or.inl rfl
    · split
      · exact Or.inr (Or.inl rfl)
      · exact Or.inr (Or.inr rfl)
  · have hauto : (zones.foldl Layers.applyZone l).auto.get x y = true := by
      rw [Layers.auto_foldl, hsize, hadd]
      rfl
    have hselects : (zones.foldl Layers.applyZone l).selects x y = true := by
      rw [Layers.selects, hauto, Bool.true_or, Bool.true_or]
    rw [word_mixLayers hxy, if_pos hselects]
  · have hclear : (zones.foldl Layers.applyZone l).selects x y = false := by
      rw [hzones]
      exact Layers.selects_foldl_of_subtractAll htag (hsize ▸ hcover) (hsize ▸ hafter)
    rw [word_mixLayers hxy, hclear]
    simp only [Bool.false_eq_true, if_false]
    split
    · exact Or.inl rfl
    · exact Or.inr rfl

/-- A pixel of a mixed page that no usable zone fills shows what the other usable zones covering it say. -/
theorem process_showsZones (s : PageSettings) (input : Raster) (cancelled : Bool) (out : PageOutput)
    (hmode : s.outputMode = .mixed) (h : s.process input cancelled = .ok out) :
    ∃ source allZones base, s.normalized.resample input = .ok (source, allZones) ∧
      s.baseImage source = .ok base ∧ out.image.size = base.size ∧ out.image.format = base.format ∧
      base.format ≠ .bit1 ∧
      ∀ x y, base.size.Contains x y →
        (∀ z ∈ (Zone.sift allZones).1, z.tag = .fill → ¬ z.Covers base.size x y) →
        ShowsZones (Zone.sift allZones).1 base out.image x y := by
  obtain ⟨run, rfl⟩ := exists_run h
  have hbase := workingCopies_eq_ok run.workingCopies_eq
  have hformat := format_baseImage_ne hbase
  obtain ⟨l, hlsize, hlayers⟩ := run.exists_layers hmode
  have hcompose := run.compose_eq
  rw [show s.normalized.outputMode = .mixed from hmode] at hcompose
  obtain ⟨_, b, hpage⟩ := compose_mixed_eq_ok hformat hcompose
  have hsize : run.page.size = run.base.size := by rw [hpage]; rfl
  refine ⟨run.source, run.allZones, run.base, run.resample_eq, hbase, ?_, ?_, hformat, fun x y hxy hfree => ?_⟩
  · exact (size_fillZones run.page run.zones).trans hsize
  · rw [Run.output, format_fillZones, hpage]
    rfl
  · have hshows : ShowsZones run.zones run.base run.page x y := by
      rw [hpage, show run.parts.value.layers = run.zones.foldl Layers.applyZone l from hlayers]
      exact showsZones_mixLayers hlsize hxy
    have hword : run.output.image.word x y = run.page.word x y :=
      word_fillZones (hsize.symm ▸ hxy) (hsize.symm ▸ hfree)
    exact ⟨hword ▸ hshows.base_or_ink, fun hadd => hword ▸ hshows.added hadd,
      fun before z after hz htag hcover hafter => hword ▸ hshows.subtracted before z after hz htag hcover hafter⟩

/-- A mixed page of eight pixels, with one zone that takes the left out of every layer and one that adds the middle
of the upper row again, shows these zones: the page where the second covers it, and black or white where only the
first does. -/
theorem process_add_within_subtractAll :
    let page : Raster := ⟨.gray8, .standard,
      ⟨⟨4, 2, by decide, by decide⟩, #[9, 60, 120, 180, 240, 30, 90, 250], rfl⟩⟩
    let taken := Zone.rect 0.0 0.0 3.0 2.0 .pictureSubtractAll
    let added := Zone.rect 1.0 0.0 2.0 1.0 .pictureAdd
    let s : PageSettings := { outputMode := .mixed, zones := [taken, added] }
    s.outputMode = .mixed ∧ (Zone.sift s.zones).1 = [taken, added] ∧ ∃ out, s.process page false = .ok out ∧
      out.image.size = page.size ∧ out.image.format = .gray8 ∧ ∀ x y, page.size.Contains x y →
        ShowsZones [taken, added] page out.image x y ∧
        (added.Covers page.size x y → out.image.word x y = page.word x y) ∧
        (taken.Covers page.size x y → ¬ added.Covers page.size x y →
          out.image.word x y = 0 ∨ out.image.word x y = 255) := by
  intro page taken added s
  have hsift : (Zone.sift s.zones).1 = [taken, added] := by
    have husable : [taken, added].all (·.fault?.isNone) = true := by decide +kernel
    rw [Zone.sift_of_usable fun z hz => Option.isNone_iff_eq_none.mp (List.all_eq_true.mp husable z hz)]
  have hcolors : ∀ z ∈ s.zones, z.ColorInRange := by
    simp only [s, List.forall_mem_cons]
    exact ⟨nofun, nofun, nofun⟩
  obtain ⟨out, hout, _⟩ := process_returns_of_no_target s page (by decide) hcolors rfl
  obtain ⟨source, allZones, base, hsource, hbase, hsize, hformat, _, hshows⟩ :=
    process_showsZones s page false out rfl hout
  cases hsource
  cases hbase
  have hzones : (Zone.sift s.normalized.zones).1 = [taken, added] := hsift
  refine ⟨rfl, hsift, out, hout, hsize, hformat, fun x y hxy => ?_⟩
  have hshown : ShowsZones [taken, added] page out.image x y := by
    rw [← hzones]
    refine hshows x y hxy fun z hz htag => ?_
    rw [hzones, List.mem_cons, List.mem_singleton] at hz
    rcases hz with rfl | rfl <;> exact absurd htag (by decide)
  refine ⟨hshown, fun hadd => hshown.added ?_, fun htake hnot => ?_⟩
  · exact Zone.lastPictureTag?_concat [taken] (z := added) (by decide) hadd
  · refine hshown.subtracted [] taken [added] rfl rfl htake fun z hz _ => ?_
    rw [List.mem_singleton.mp hz]
    exact hnot

end PageSettings

end ScannedPage
