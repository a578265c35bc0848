import ScannedPage.Proofs.Page.Parallel
import ScannedPage.Proofs.Page.Totality

/-!
# What each mode looks at

A black and white page has no layers, a page in colour or gray has no text, and a mixed page looks at the
sensitivity of rectangles and at the adjustment of the foreground only where the layer is switched on. Settings
that agree in the rest (`SameUse`) take a page through the same steps. Outside mixed pages this holds although the
zones for pictures may differ: no step looks at them, and only the warnings about zones still count them.
-/

namespace ScannedPage

/-- Two outputs with the same page, the same rectangles around pictures and the same report on specks. -/
structure PageOutput.SameFindings (out out' : PageOutput) : Prop where
  image_eq : out'.image = out.image
  pictureZones_eq : out'.pictureZones = out.pictureZones
  despeckle_eq : out'.despeckle = out.despeckle

namespace PageSettings

/-- The zones to be filled, in order. -/
def fills (zones : List Zone) : List Zone := zones.filter (·.tag = .fill)

/-- Two settings records of one mode that agree in all that the mode looks at. -/
structure SameUse (s s' : PageSettings) : Prop where
  outputMode_eq : s'.outputMode = s.outputMode
  targetResolution_eq : s'.targetResolution = s.targetResolution
  normalizeIllumination_eq : s'.normalizeIllumination = s.normalizeIllumination
  debug_eq : s'.debug = s.debug
  fills_eq : fills s'.zones = fills s.zones
  threshold_eq : s.outputMode.binarizes = true → s'.threshold = s.threshold
  despeckle_eq : s.outputMode.binarizes = true → s'.despeckle = s.despeckle
  smoothEdges_eq : s.outputMode.binarizes = true → s'.smoothEdges = s.smoothEdges
  zones_eq : s.outputMode = .mixed → s'.zones = s.zones
  mixed_eq : s.outputMode = .mixed → s'.mixed = s.mixed
  sensitivity_eq : s.outputMode = .mixed → s.mixed.pictureZonesLayer = true →
    s'.pictureSensitivity = s.pictureSensitivity
  adjustment_eq : s.outputMode = .mixed → s.mixed.foregroundLayer = true →
    s'.foregroundAdjustment = s.foregroundAdjustment

/-- Filling looks at the zones to be filled only. -/
theorem fillZones_congr {zones zones' : List Zone} (h : fills zones' = fills zones) (r : Raster) :
    fillZones r zones' = fillZones r zones :=
  congrArg (List.foldl fillZone r) h

/-- The usable zones to be filled are those of the zones to be filled. -/
theorem fills_sift_workingZones (s : PageSettings) (input : Raster) : fills (Zone.sift (s.workingZones input)).1 =
    ((fills s.zones).map (s.workingZone input)).filter fun z => z.fault?.isNone := by
  have htag : (fun z : Zone => decide (z.tag = .fill)) ∘ s.workingZone input =
      fun z => decide (z.tag = .fill) := by
    funext z
    simp [s.tag_workingZone input z]
  have hmap : fills (s.workingZones input) = (fills s.zones).map (s.workingZone input) := by
    rw [fills, fills, workingZones, List.filter_map, htag]
  rw [← hmap, fills, fills, Zone.sift, List.filter_filter, List.filter_filter]
  apply List.filter_congr
  intro z _
  exact Bool.and_comm _ _

namespace SameUse

variable {s s' : PageSettings} (h : s.SameUse s')
include h

/-- Bringing values into range keeps two settings records in agreement. -/
theorem normalized : s.normalized.SameUse s'.normalized where
  outputMode_eq := h.outputMode_eq
  targetResolution_eq := congrArg (Option.filter Resolution.valid) h.targetResolution_eq
  normalizeIllumination_eq := h.normalizeIllumination_eq
  debug_eq := h.debug_eq
  fills_eq := h.fills_eq
  threshold_eq hmode := congrArg Threshold.Method.normalized (h.threshold_eq hmode)
  despeckle_eq := h.despeckle_eq
  smoothEdges_eq := h.smoothEdges_eq
  zones_eq := h.zones_eq
  mixed_eq := h.mixed_eq
  sensitivity_eq hmode hlayer := congrArg (min · Region.fullSensitivity) (h.sensitivity_eq hmode hlayer)
  adjustment_eq := h.adjustment_eq

/-- Settings that agree in what the mode looks at make the same working copies. -/
theorem workingCopies_congr (source : Raster) : s'.workingCopies source = s.workingCopies source := by
  simp only [workingCopies, h.normalizeIllumination_eq, h.outputMode_eq]

/-- Detection looks at the sensitivity only where rectangles are wanted. -/
theorem detectPictures_congr (hmode : s.outputMode = .mixed) (gray : Raster) :
    s'.detectPictures gray = s.detectPictures gray := by
  simp only [detectPictures, h.mixed_eq hmode]
  cases hlayer : s.mixed.pictureZonesLayer with
  | false => simp
  | true => simp only [h.sensitivity_eq hmode hlayer]

/-- Settings that agree in what the mode looks at find the same pictures, on mixed pages under the same zones. -/
theorem pictures_congr (gray : Raster) {zones zones' : List Zone}
    (hzones : s.outputMode = .mixed → zones' = zones) : s'.pictures gray zones' = s.pictures gray zones := by
  rw [pictures, pictures, h.outputMode_eq]
  by_cases hmode : s.outputMode = .mixed
  · rw [if_pos hmode, if_pos hmode, h.detectPictures_congr hmode, hzones hmode]
  · rw [if_neg hmode, if_neg hmode]

/-- A mode that makes a bilevel page makes the same clean text. -/
theorem cleanText_congr (hmode : s.outputMode.binarizes = true) (gray : Raster) (method : Threshold.Method Float)
    (area : Option Mask) : s'.cleanText gray method area = s.cleanText gray method area := by
  simp only [cleanText, binarizeText, h.despeckle_eq hmode, h.smoothEdges_eq hmode]

/-- The foreground looks at its adjustment only where there is such a layer. -/
theorem foreground_congr (gray : Raster) {zones zones' : List Zone} (layers : Layers) (area : Option Mask)
    (text : Raster) (hzones : s.outputMode = .mixed → zones' = zones) :
    s'.foreground gray zones' layers area text = s.foreground gray zones layers area text := by
  rw [foreground, foreground, h.outputMode_eq]
  by_cases hmode : s.outputMode = .mixed
  · have htext : s.outputMode.binarizes = true := by
      rw [hmode]
      rfl
    rw [h.mixed_eq hmode, hzones hmode]
    split
    · next hlayer =>
      simp only [foregroundInk, h.adjustment_eq hmode hlayer.2, h.threshold_eq htext, h.cleanText_congr htext]
    · rfl
  · rw [if_neg fun hmixed => hmode hmixed.1, if_neg fun hmixed => hmode hmixed.1]

/-- Text and foreground are separated alike, on mixed pages under the same zones. -/
theorem separate_congr (gray : Raster) {zones zones' : List Zone} (layers : Layers)
    (hzones : s.outputMode = .mixed → zones' = zones) :
    s'.separate gray zones' layers = s.separate gray zones layers := by
  rw [separate_eq, separate_eq, reservedArea, reservedArea, h.outputMode_eq]
  split
  · next hmode =>
    simp only [h.threshold_eq hmode, h.cleanText_congr hmode, h.foreground_congr gray layers _ _ hzones]
  · rfl

/-- Every step after resampling is the same under settings that agree in what the mode looks at. -/
theorem stepsAgree (input : Raster) : s.StepsAgree s' input := by
  have hzones : s.outputMode = .mixed →
      (Zone.sift (s'.workingZones input)).1 = (Zone.sift (s.workingZones input)).1 := by
    intro hmode
    rw [workingZones, workingZones, h.zones_eq hmode, workingZone_congr h.targetResolution_eq]
  constructor
  · exact h.outputMode_eq
  · exact h.targetResolution_eq
  · exact h.workingCopies_congr
  · intro gray
    exact h.pictures_congr gray hzones
  · intro gray layers
    exact h.separate_congr gray layers hzones

end SameUse

/-- Two outputs that may differ in their warnings only, and do so only under different zones. -/
def SameButZoneWarnings (s s' : PageSettings) (out out' : PageOutput) : Prop :=
  out' = { out with warnings := out'.warnings } ∧ (s'.zones = s.zones → out' = out)

/-- Settings that agree in what the mode looks at end with the same fault or with the same output up to warnings
about zones, under values in range. -/
theorem SameUse.processNormalized_alike {s s' : PageSettings} (h : s.SameUse s') (input : Raster) :
    Alike (SameButZoneWarnings s s') (s.processNormalized input) (s'.processNormalized input) := by
  refine (PageSettings.processNormalized_alike (h.stepsAgree input)).mono ?_
  rintro _ _ ⟨run, run', rfl, rfl, hsame⟩
  have hfills : fills run'.zones = fills run.zones := by
    rw [Run.zones, Run.zones, run'.allZones_eq, run.allZones_eq, fills_sift_workingZones, fills_sift_workingZones,
      h.fills_eq, workingZone_congr h.targetResolution_eq]
  have hsamePage : run'.output = { run.output with warnings := run'.output.warnings } := by
    simp only [Run.output, hsame.copies_eq, hsame.found_eq, hsame.parts_eq, hsame.page_eq, h.debug_eq,
      fillZones_congr hfills]
  refine ⟨hsamePage, ?_⟩
  intro hzones
  have hall : run'.allZones = run.allZones := by
    rw [run'.allZones_eq, run.allZones_eq, workingZones, workingZones, hzones,
      workingZone_congr h.targetResolution_eq]
  have hwarnings : run'.output.warnings = run.output.warnings := by
    simp only [Run.output, hall, hsame.found_eq, hsame.parts_eq]
  rw [hsamePage, hwarnings]

/-- Settings that agree in what the mode looks at end with the same fault or with the same output up to warnings
about zones, be the work called off or not. -/
theorem SameUse.process_alike {s s' : PageSettings} (h : s.SameUse s') (input : Raster) (cancelled : Bool) :
    Alike (SameButZoneWarnings s s') (s.process input cancelled) (s'.process input cancelled) := by
  refine (Alike.refl (checkpoint cancelled)).bind ?_
  intro _ _ _
  exact h.normalized.processNormalized_alike input

/-- Outputs that differ in warnings about zones only have the same findings. -/
theorem SameButZoneWarnings.sameFindings {s s' : PageSettings} {out out' : PageOutput}
    (h : SameButZoneWarnings s s' out out') : out.SameFindings out' := by
  rw [h.1]
  exact ⟨rfl, rfl, rfl⟩

/-- Each mode ignores the settings it does not use. A black and white page ignores the layers, the sensitivity, the
adjustment of the foreground and all zones but those to be filled; a page in colour or gray also ignores the
threshold, the removal of specks and the smoothing of edges; a mixed page ignores the adjustment of a foreground
that it does not have, and the sensitivity of rectangles that it does not have. -/
theorem process_overlooks (s : PageSettings) (input : Raster) (cancelled : Bool) :
    (s.outputMode = .blackAndWhite →
      ∀ (mixed : MixedOptions) (pictureSensitivity : Nat) (foregroundAdjustment : Int) (zones : List Zone),
        fills zones = fills s.zones →
        Alike PageOutput.SameFindings (s.process input cancelled)
          (process { s with mixed, pictureSensitivity, foregroundAdjustment, zones } input cancelled)) ∧
    (s.outputMode = .colorOrGrayscale →
      ∀ (mixed : MixedOptions) (pictureSensitivity : Nat) (foregroundAdjustment : Int) (zones : List Zone)
        (threshold : Threshold.Method Float) (despeckle : DespecklePolicy) (smoothEdges : Bool),
        fills zones = fills s.zones →
        Alike PageOutput.SameFindings (s.process input cancelled)
          (process
            { s with mixed, pictureSensitivity, foregroundAdjustment, zones, threshold, despeckle, smoothEdges }
            input cancelled)) ∧
    (s.outputMode = .mixed → s.mixed.foregroundLayer = false →
      ∀ foregroundAdjustment : Int,
        process { s with foregroundAdjustment } input cancelled = s.process input cancelled) ∧
    (s.outputMode = .mixed → s.mixed.pictureZonesLayer = false →
      ∀ pictureSensitivity : Nat,
        process { s with pictureSensitivity } input cancelled = s.process input cancelled) := by
  refine ⟨?_, ?_, ?_, ?_⟩
  · intro hmode mixed sensitivity adjustment zones hfills
    have huse : s.SameUse { s with
        mixed, pictureSensitivity := sensitivity, foregroundAdjustment := adjustment, zones } := by
      constructor <;> simp [hmode, hfills]
    exact (huse.process_alike input cancelled).mono fun _ _ => SameButZoneWarnings.sameFindings
  · intro hmode mixed sensitivity adjustment zones threshold despeckle smoothEdges hfills
    have huse : s.SameUse { s with
        mixed, pictureSensitivity := sensitivity, foregroundAdjustment := adjustment, zones, threshold, despeckle,
        smoothEdges } := by
      constructor <;> simp [hmode, hfills, OutputMode.binarizes]
    exact (huse.process_alike input cancelled).mono fun _ _ => SameButZoneWarnings.sameFindings
  · intro hmode hlayer adjustment
    have huse : s.SameUse { s with foregroundAdjustment := adjustment } := by
      constructor <;> simp [hlayer]
    exact ((huse.process_alike input cancelled).mono fun _ _ hsame => hsame.2 rfl).eq
  · intro hmode hlayer sensitivity
    have huse : s.SameUse { s with pictureSensitivity := sensitivity } := by
      constructor <;> simp [hlayer]
    exact ((huse.process_alike input cancelled).mono fun _ _ hsame => hsame.2 rfl).eq

/-- A black pixel in black and white comes out the same under other layers and with a zone for pictures on it. -/
theorem process_overlooks_one_pixel :
    ∃ out out', process {} ⟨.gray8, .uniform 300, Grid.filled ⟨1, 1, by decide, by decide⟩ 0⟩ false = .ok out ∧
      process { mixed := ⟨false, false, true⟩, pictureSensitivity := 5, foregroundAdjustment := 7,
                zones := [Zone.rect 0 0 1 1 .pictureSubtractAll] }
        ⟨.gray8, .uniform 300, Grid.filled ⟨1, 1, by decide, by decide⟩ 0⟩ false = .ok out' ∧
      out.SameFindings out' := by
  obtain ⟨out, hout, _⟩ := process_returns_of_no_target {}
    ⟨.gray8, .uniform 300, Grid.filled ⟨1, 1, by decide, by decide⟩ 0⟩ (by decide) nofun rfl
  obtain ⟨out', hout', hsame⟩ := ((process_overlooks {} _ false).1 rfl ⟨false, false, true⟩ 5 7
    [Zone.rect 0 0 1 1 .pictureSubtractAll] rfl).exists_ok hout
  exact ⟨out, out', hout, hout', hsame⟩

end PageSettings

end ScannedPage
