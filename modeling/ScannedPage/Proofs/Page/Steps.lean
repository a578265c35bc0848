import ScannedPage.Page.Process
import ScannedPage.Proofs.Outcome

/-!
# The steps behind an output

The processing of a page as one chain of steps. A `Run` holds the result of every step, and an output is what
some run ends with (`processNormalized_eq_ok_iff`).
-/

namespace ScannedPage.PageSettings

/-- The area that text leaves to pictures, on mixed pages. -/
def reservedArea (s : PageSettings) (layers : Layers) : Except PageError (Option Mask) :=
  if s.outputMode = .mixed then some <$> layers.pictureArea else pure none

/-- Separation as one chain of steps. -/
theorem separate_eq (s : PageSettings) (gray : Raster) (zones : List Zone) (layers : Layers) :
    s.separate gray zones layers =
      if s.outputMode.binarizes then do
        let area ← s.reservedArea layers
        let text ← s.cleanText gray s.threshold area
        let front ← s.foreground gray zones layers area text.value.bilevel
        return ⟨⟨some text.value.bilevel, text.value.report, front.value⟩, text.snapshots ++ front.snapshots,
          text.warnings ++ front.warnings⟩
      else return ⟨⟨none, .none, layers⟩, [], []⟩ := by
  rw [separate, reservedArea]
  by_cases hmixed : s.outputMode = .mixed
  · simp only [hmixed, if_true]
  · simp only [hmixed, if_false]

/-- A run of all steps on a page: what each step gave from what the steps before it gave. -/
structure Run (s : PageSettings) (input : Raster) where
  source : Raster
  /-- The zones on the resampled page, usable or not. -/
  allZones : List Zone
  copies : Traced WorkingCopies
  found : Traced Pictures
  parts : Traced Separation
  page : Raster
  resample_eq : s.resample input = .ok (source, allZones)
  workingCopies_eq : s.workingCopies source = .ok copies
  pictures_eq : s.pictures copies.value.gray (Zone.sift allZones).1 = .ok found
  separate_eq : s.separate copies.value.gray (Zone.sift allZones).1 found.value.layers = .ok parts
  compose_eq : compose copies.value.base parts.value.bilevel parts.value.layers s.outputMode = .ok page

namespace Run

variable {s : PageSettings} {input : Raster}

/-- The usable zones on the resampled page. -/
def zones (run : s.Run input) : List Zone := (Zone.sift run.allZones).1

/-- The image that pictures are delivered from. -/
def base (run : s.Run input) : Raster := run.copies.value.base

/-- The gray image that pictures and text are looked for on. -/
def gray (run : s.Run input) : Raster := run.copies.value.gray

/-- The layers that the page is composed from. -/
def layers (run : s.Run input) : Layers := run.parts.value.layers

/-- The output that a run ends with. -/
def output (run : s.Run input) : PageOutput where
  image := fillZones run.page run.zones
  pictureZones := run.found.value.rects
  despeckle := run.parts.value.report
  snapshots := if s.debug then
    run.copies.snapshots ++ run.found.snapshots ++ run.parts.snapshots ++ [⟨"composited", run.page, []⟩] else []
  warnings := (Zone.sift run.allZones).2.map (fun (place, reason) => .invalidZone place reason) ++
    run.found.warnings ++ run.parts.warnings

end Run

/-- Without a target resolution the zones of a run are those of the settings. -/
theorem Run.allZones_of_no_target {s : PageSettings} {input : Raster} (run : s.Run input)
    (h : s.targetResolution = none) : run.allZones = s.zones := by
  have hresample := run.resample_eq
  rw [resample, h] at hresample
  exact (Prod.mk.inj (pure_eq_ok.mp hresample)).2.symm

/-- An output is what some run ends with. -/
theorem processNormalized_eq_ok_iff {s : PageSettings} {input : Raster} {out : PageOutput} :
    s.processNormalized input = .ok out ↔ ∃ run : s.Run input, run.output = out := by
  constructor
  · intro h
    obtain ⟨⟨source, allZones⟩, hresample, h⟩ := bind_eq_ok.mp h
    obtain ⟨copies, hcopies, h⟩ := bind_eq_ok.mp h
    obtain ⟨found, hfound, h⟩ := bind_eq_ok.mp h
    obtain ⟨parts, hparts, h⟩ := bind_eq_ok.mp h
    obtain ⟨page, hpage, h⟩ := bind_eq_ok.mp h
    exact ⟨⟨source, allZones, copies, found, parts, page, hresample, hcopies, hfound, hparts, hpage⟩,
      pure_eq_ok.mp h⟩
  · rintro ⟨run, rfl⟩
    refine bind_eq_ok.mpr ⟨_, run.resample_eq, ?_⟩
    refine bind_eq_ok.mpr ⟨_, run.workingCopies_eq, ?_⟩
    refine bind_eq_ok.mpr ⟨_, run.pictures_eq, ?_⟩
    refine bind_eq_ok.mpr ⟨_, run.separate_eq, ?_⟩
    exact bind_eq_ok.mpr ⟨_, run.compose_eq, rfl⟩

/-- The results of the single steps behind an output. -/
theorem processNormalized_eq_ok {s : PageSettings} {input : Raster} {out : PageOutput}
    (h : s.processNormalized input = .ok out) :
    ∃ source allZones copies found parts page,
      s.resample input = .ok (source, allZones) ∧
      s.workingCopies source = .ok copies ∧
      s.pictures copies.value.gray (Zone.sift allZones).1 = .ok found ∧
      s.separate copies.value.gray (Zone.sift allZones).1 found.value.layers = .ok parts ∧
      compose copies.value.base parts.value.bilevel parts.value.layers s.outputMode = .ok page ∧
      out.image = fillZones page (Zone.sift allZones).1 ∧
      out.snapshots = if s.debug then
        copies.snapshots ++ found.snapshots ++ parts.snapshots ++ [⟨"composited", page, []⟩] else [] := by
  obtain ⟨run, rfl⟩ := processNormalized_eq_ok_iff.mp h
  exact ⟨_, _, _, _, _, _, run.resample_eq, run.workingCopies_eq, run.pictures_eq, run.separate_eq,
    run.compose_eq, rfl, rfl⟩

/-- Work that was not called off runs under the settings brought into range. -/
theorem process_false (s : PageSettings) (input : Raster) :
    s.process input false = s.normalized.processNormalized input := rfl

/-- The output of a page is what some run under the settings brought into range ends with. -/
theorem exists_run {s : PageSettings} {input : Raster} {cancelled : Bool} {out : PageOutput}
    (h : s.process input cancelled = .ok out) : ∃ run : s.normalized.Run input, run.output = out := by
  obtain ⟨_, _, h⟩ := bind_eq_ok.mp h
  exact processNormalized_eq_ok_iff.mp h

end ScannedPage.PageSettings
