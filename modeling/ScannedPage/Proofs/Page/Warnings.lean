import ScannedPage.Proofs.Convergence
import ScannedPage.Proofs.Page.Mixed

/-!
# What the warnings of a page say

Besides the zones set aside, the warnings of a page report reconstructions that were cut off (`CutOff`), and the
images between the steps carry the warnings of the step that made them. Two reports are weaker than their wording.
The warning about a picture mask counts the opening even where only the filling of holes was cut off, and the
warnings of a foreground that is binarized on its own are carried by no image.
-/

namespace ScannedPage

open Morphology Region

/-- The warning is about a reconstruction. -/
def PageWarning.isConvergence : PageWarning → Bool
  | convergence _ _ => true
  | invalidZone _ _ => false

/-- A step warns of its reconstruction exactly if that did not come to rest. -/
theorem mem_convergenceWarnings {step : String} {converged : Bool} {iterations : Nat} {w : PageWarning} :
    w ∈ convergenceWarnings step converged iterations ↔ converged = false ∧ w = .convergence step iterations := by
  cases converged <;> simp [convergenceWarnings]

/-- The warnings about zones that are set aside. -/
def rejections (rejected : List (Nat × ZoneError)) : List PageWarning :=
  rejected.map fun (place, reason) => .invalidZone place reason

/-- The warnings that images between the steps carry, in order. -/
def shotWarnings (shots : List Snapshot) : List PageWarning := shots.flatMap (·.warnings)

/-- Warnings of images in a row stand in a row. -/
theorem shotWarnings_append (a b : List Snapshot) : shotWarnings (a ++ b) = shotWarnings a ++ shotWarnings b :=
  List.flatMap_append

/-- The step raised warnings of one kind only, and its images carry all of them, in order. -/
structure Traced.Annotated {α : Type} (t : Traced α) (Q : PageWarning → Prop) : Prop where
  all : ∀ w ∈ t.warnings, Q w
  shown : shotWarnings t.snapshots = t.warnings

/-- A step that shows and raises nothing is annotated. -/
theorem annotated_silent {α : Type} (value : α) (Q : PageWarning → Prop) : Traced.Annotated ⟨value, [], []⟩ Q :=
  ⟨fun _ hw => absurd hw List.not_mem_nil, rfl⟩

/-- A zone with two corners only is set aside, and the usable zone before it is kept. -/
theorem Zone.sift_beside_flat {z : Zone} (h : z.fault?.isNone = true) :
    Zone.sift [z, ⟨.polygon [⟨0.0, 0.0⟩, ⟨3.0, 1.0⟩], .fill, none⟩] =
      ([z], [(1, .polygon (.tooFewVertices 2))]) := by
  have hfew : Polygon.fault? [⟨0.0, 0.0⟩, ⟨3.0, 1.0⟩] = some (.tooFewVertices 2) := by decide +kernel
  have hflat : Zone.fault? ⟨.polygon [⟨0.0, 0.0⟩, ⟨3.0, 1.0⟩], .fill, none⟩ =
      some (.polygon (.tooFewVertices 2)) :=
    congrArg (Option.map ZoneError.polygon) hfew
  have hsift := Zone.sift_concat_of_fault [z] hflat
  rw [Zone.sift_of_usable (List.forall_mem_singleton.mpr (Option.isNone_iff_eq_none.mp h))] at hsift
  exact hsift

namespace PageSettings

/-- The reconstructions of a page that can be cut off at the diagonal of the page, with the step that runs them and
the count that its warning gives. -/
inductive CutOff (s : PageSettings) (gray : Raster) : String → Nat → Prop
  /-- The opening behind the picture mask is counted. -/
  | opening {opened filled : Reconstruction} (h : OpensAndFills gray opened filled)
      (hcut : opened.converged = false)
      (hlimit : opened.iterations = iterationLimit gray.size.width gray.size.height) :
      CutOff s gray "picture-mask" opened.iterations
  /-- The filling of the holes behind the picture mask is not counted: the count is that of the opening, which came
  to rest. -/
  | filling {opened filled : Reconstruction} (h : OpensAndFills gray opened filled)
      (hrest : opened.converged = true) (hcut : filled.converged = false)
      (hlimit : filled.iterations = iterationLimit gray.size.width gray.size.height) :
      CutOff s gray "picture-mask" opened.iterations
  /-- The paper behind a binarization is counted, for the text as for a foreground of its own. -/
  | paper {method : Threshold.Method Float} {grown : Reconstruction}
      (hmethod : method = s.threshold ∨ method = s.threshold.withAdjustment s.foregroundAdjustment)
      (h : Threshold.ReconstructsPaper gray method grown) (hcut : grown.converged = false)
      (hlimit : grown.iterations = iterationLimit gray.size.width gray.size.height) :
      CutOff s gray "binarization" grown.iterations

variable {s : PageSettings} {gray : Raster}

/-- The warning reports a reconstruction that was cut off. -/
def Reports (s : PageSettings) (gray : Raster) (w : PageWarning) : Prop :=
  ∃ step iterations, w = .convergence step iterations ∧ s.CutOff gray step iterations

/-- A step that warns of its reconstruction reports it, if it was cut off where it did not come to rest. -/
theorem reports_convergenceWarnings {step : String} {converged : Bool} {iterations : Nat}
    (h : converged = false → s.CutOff gray step iterations) :
    ∀ w ∈ convergenceWarnings step converged iterations, s.Reports gray w := by
  intro w hw
  obtain ⟨hcut, rfl⟩ := mem_convergenceWarnings.mp hw
  exact ⟨step, iterations, rfl, h hcut⟩

/-- A report of a reconstruction is a warning about one. -/
theorem Reports.isConvergence {w : PageWarning} (h : s.Reports gray w) : w.isConvergence = true := by
  obtain ⟨_, _, rfl, _⟩ := h
  rfl

/-- A picture mask that has not come to rest was cut off in one of its reconstructions. -/
theorem cutOff_of_pictureMask {found : PictureMask} (hgray : gray.format = .gray8)
    (h : pictureMask gray = .ok found) (hcut : found.converged = false) :
    s.CutOff gray "picture-mask" found.iterations := by
  obtain ⟨opened, filled, hsteps, hconverged, hiterations⟩ := pictureMask_eq_ok h
  obtain ⟨hopened, hfilled⟩ := hsteps.endsBy hgray
  rw [hiterations]
  cases hrest : opened.converged with
  | false => exact .opening hsteps hrest (hopened.2 hrest)
  | true =>
    have hholes : filled.converged = false := by rw [← hcut, hconverged, hrest, Bool.true_and]
    exact .filling hsteps hrest hholes (hfilled.2 hholes)

/-- A binarization that has not come to rest was cut off in the reconstruction of its paper. -/
theorem cutOff_of_binarize {method : Threshold.Method Float} {mask : Option Mask} {ink : Raster}
    {e : Threshold.Estimate} (hgray : gray.format = .gray8)
    (hmethod : method = s.threshold ∨ method = s.threshold.withAdjustment s.foregroundAdjustment)
    (h : Threshold.binarize gray method mask = .ok (ink, e)) (hcut : e.converged = false) :
    s.CutOff gray "binarization" (e.iterations.getD 0) := by
  obtain ⟨grown, hpaper, hgrown, hiterations⟩ := Threshold.binarize_not_converged h hcut
  rw [Raster.toGray_eq_self hgray] at hpaper
  rw [hiterations, Option.getD_some]
  exact .paper hmethod hpaper hgrown ((hpaper.endsBy hgray).2 hgrown)

/-- The working copies are shown without a warning. -/
theorem workingCopies_shotWarnings {source : Raster} {copies : Traced WorkingCopies}
    (h : s.workingCopies source = .ok copies) : shotWarnings copies.snapshots = [] := by
  rw [workingCopies] at h
  split at h
  · obtain ⟨base, _, h⟩ := bind_eq_ok.mp h
    exact pure_eq_ok.mp h ▸ rfl
  · split at h
    · obtain ⟨gray, _, h⟩ := bind_eq_ok.mp h
      exact pure_eq_ok.mp h ▸ rfl
    · exact pure_eq_ok.mp h ▸ rfl

/-- Detection reports the reconstructions of its mask beside the image of that mask. -/
theorem detectPictures_annotated {found : Traced Pictures} (hgray : gray.format = .gray8)
    (h : s.detectPictures gray = .ok found) : found.Annotated (s.Reports gray) := by
  rw [detectPictures] at h
  dsimp only at h
  split at h
  · obtain ⟨mask, hmask, h⟩ := bind_eq_ok.mp h
    have hcut := cutOff_of_pictureMask (s := s) hgray (mapError_eq_ok.mp hmask)
    have hreports := reports_convergenceWarnings hcut
    split at h
    · obtain ⟨rects, _, h⟩ := bind_eq_ok.mp h
      obtain ⟨boxes, _, h⟩ := bind_eq_ok.mp h
      exact pure_eq_ok.mp h ▸ ⟨hreports, by simp [shotWarnings]⟩
    · exact pure_eq_ok.mp h ▸ ⟨hreports, by simp [shotWarnings]⟩
  · exact pure_eq_ok.mp h ▸ annotated_silent _ _

/-- Finding pictures reports the reconstructions of their mask beside the image of that mask, whatever the
zones. -/
theorem pictures_annotated {zones : List Zone} {found : Traced Pictures} (hgray : gray.format = .gray8)
    (h : s.pictures gray zones = .ok found) : found.Annotated (s.Reports gray) := by
  rw [pictures] at h
  split at h
  · obtain ⟨detected, hdetected, h⟩ := bind_eq_ok.mp h
    obtain ⟨layers, _, h⟩ := bind_eq_ok.mp h
    obtain ⟨hreports, hshown⟩ := detectPictures_annotated hgray hdetected
    exact pure_eq_ok.mp h ▸ ⟨hreports, hshown⟩
  · exact pure_eq_ok.mp h ▸ annotated_silent _ _

section Text

variable {method : Threshold.Method Float} {area : Option Mask}

/-- A binarization reports the reconstruction of its paper beside the first image of the text. -/
theorem binarizeText_annotated {text : Traced Raster} (hgray : gray.format = .gray8)
    (hmethod : method = s.threshold ∨ method = s.threshold.withAdjustment s.foregroundAdjustment)
    (h : s.binarizeText gray method area = .ok text) : text.Annotated (s.Reports gray) := by
  obtain ⟨⟨raw, e⟩, hraw, h⟩ := bind_eq_ok.mp h
  have hcut := cutOff_of_binarize hgray hmethod (mapError_eq_ok.mp hraw)
  have hreports := reports_convergenceWarnings hcut
  dsimp only at h
  split at h
  · obtain ⟨smooth, _, h⟩ := bind_eq_ok.mp h
    exact pure_eq_ok.mp h ▸ ⟨hreports, by simp [shotWarnings]⟩
  · exact pure_eq_ok.mp h ▸ ⟨hreports, by simp [shotWarnings]⟩

/-- Clean text reports the reconstruction of its paper beside the first image of the text. -/
theorem cleanText_annotated {text : Traced CleanText} (hgray : gray.format = .gray8)
    (hmethod : method = s.threshold ∨ method = s.threshold.withAdjustment s.foregroundAdjustment)
    (h : s.cleanText gray method area = .ok text) : text.Annotated (s.Reports gray) := by
  obtain ⟨raw, hraw, h⟩ := bind_eq_ok.mp h
  obtain ⟨⟨cleaned, report⟩, _, h⟩ := bind_eq_ok.mp h
  obtain ⟨hreports, hshown⟩ := binarizeText_annotated hgray hmethod hraw
  refine pure_eq_ok.mp h ▸ ⟨hreports, ?_⟩
  rw [shotWarnings_append, hshown]
  exact List.append_nil _

end Text

/-- The foreground is switched on, and its adjustment differs from that of the text. -/
def RebinarizesForeground (s : PageSettings) : Prop :=
  s.outputMode = .mixed ∧ s.mixed.foregroundLayer = true ∧ s.foregroundAdjustment ≠ s.threshold.adjustment

/-- The warnings that no image carries: those of the clean text under the adjustment of the foreground, where this
is not the text at hand. -/
def Unshown (s : PageSettings) (gray : Raster) (area : Option Mask) (own : List PageWarning) : Prop :=
  (¬ s.RebinarizesForeground ∧ own = []) ∨
    s.RebinarizesForeground ∧ ∃ text,
      s.cleanText gray (s.threshold.withAdjustment s.foregroundAdjustment) area = .ok text ∧ own = text.warnings

section Separation

variable {zones : List Zone} {layers : Layers} {area : Option Mask}

/-- The warnings that no image carries report reconstructions that were cut off. -/
theorem Unshown.reports {own : List PageWarning} (hgray : gray.format = .gray8) (h : s.Unshown gray area own) :
    ∀ w ∈ own, s.Reports gray w := by
  obtain ⟨_, rfl⟩ | ⟨_, text, htext, rfl⟩ := h
  · exact nofun
  · exact (cleanText_annotated hgray (.inr rfl) htext).all

/-- The foreground is shown without a warning, and raises those of its own binarization. -/
theorem foreground_unshown {text : Raster} {front : Traced Layers}
    (h : s.foreground gray zones layers area text = .ok front) :
    shotWarnings front.snapshots = [] ∧ s.Unshown gray area front.warnings := by
  rw [foreground] at h
  split at h
  · next hlayer =>
    obtain ⟨ink, hink, h⟩ := bind_eq_ok.mp h
    obtain ⟨mask, _, h⟩ := bind_eq_ok.mp h
    obtain ⟨final, _, h⟩ := bind_eq_ok.mp h
    rw [← pure_eq_ok.mp h]
    constructor
    · cases final.foreground with
      | none => rfl
      | some m => rfl
    · rw [foregroundInk] at hink
      split at hink
      · next hagree =>
        rw [← pure_eq_ok.mp hink]
        exact .inl ⟨fun hown => hown.2.2 hagree, rfl⟩
      · next hdiffer =>
        obtain ⟨own, hown, hink⟩ := bind_eq_ok.mp hink
        rw [← pure_eq_ok.mp hink]
        exact .inr ⟨⟨hlayer.1, hlayer.2, hdiffer⟩, own, hown, rfl⟩
  · next hlayer =>
    rw [← pure_eq_ok.mp h]
    exact ⟨rfl, .inl ⟨fun hown => hlayer ⟨hown.1, hown.2.1⟩, rfl⟩⟩

/-- Separation raises the warnings that its images carry, and then those that no image carries. -/
theorem separate_warnings {parts : Traced Separation} (hgray : gray.format = .gray8)
    (h : s.separate gray zones layers = .ok parts) :
    (∀ w ∈ parts.warnings, s.Reports gray w) ∧ ∃ area own, s.reservedArea layers = .ok area ∧
      s.Unshown gray area own ∧ parts.warnings = shotWarnings parts.snapshots ++ own := by
  rw [separate_eq] at h
  split at h
  · obtain ⟨area, harea, h⟩ := bind_eq_ok.mp h
    obtain ⟨text, htext, h⟩ := bind_eq_ok.mp h
    obtain ⟨front, hfront, h⟩ := bind_eq_ok.mp h
    obtain ⟨hreports, hshown⟩ := cleanText_annotated hgray (.inl rfl) htext
    obtain ⟨hnone, hown⟩ := foreground_unshown hfront
    rw [← pure_eq_ok.mp h]
    constructor
    · intro w hw
      exact (List.mem_append.mp hw).elim (hreports w) (hown.reports hgray w)
    · refine ⟨area, front.warnings, harea, hown, ?_⟩
      rw [shotWarnings_append, hshown, hnone, List.append_nil]
  · next hplain =>
    have hmode : s.outputMode ≠ .mixed := fun hmixed => hplain (by rw [hmixed]; rfl)
    rw [← pure_eq_ok.mp h]
    exact ⟨nofun, none, [], if_neg hmode, .inl ⟨fun hown => hmode hown.1, rfl⟩, rfl⟩

end Separation

/-- No warning about a zone is one about a reconstruction. -/
theorem filter_isConvergence_rejections (rejected : List (Nat × ZoneError)) :
    (rejections rejected).filter PageWarning.isConvergence = [] := by
  induction rejected with
  | nil => rfl
  | cons zone rejected ih => exact ih

/-- Among warnings that report reconstructions, all are about reconstructions. -/
theorem filter_isConvergence_reports {ws : List PageWarning} (h : ∀ w ∈ ws, s.Reports gray w) :
    ws.filter PageWarning.isConvergence = ws :=
  List.filter_eq_self.mpr fun w hw => (h w hw).isConvergence

namespace Run

variable {input : Raster}

/-- The image that a run searches is gray. -/
theorem format_gray (run : s.Run input) : run.gray.format = .gray8 :=
  format_workingCopies_gray run.workingCopies_eq

/-- The warnings of a run about reconstructions are those of the pictures and of the separation. -/
theorem filter_isConvergence (run : s.Run input) :
    run.output.warnings.filter PageWarning.isConvergence = run.found.warnings ++ run.parts.warnings := by
  have hfound := (pictures_annotated run.format_gray run.pictures_eq).all
  have hparts := (separate_warnings run.format_gray run.separate_eq).1
  have hall : run.output.warnings =
      rejections (Zone.sift run.allZones).2 ++ run.found.warnings ++ run.parts.warnings :=
    rfl
  rw [hall, List.filter_append, List.filter_append, filter_isConvergence_rejections,
    filter_isConvergence_reports hfound, filter_isConvergence_reports hparts, List.nil_append]

/-- A run raises the warnings about zones that it sets aside, and then those about reconstructions. -/
theorem warnings_eq (run : s.Run input) : run.output.warnings =
    rejections (Zone.sift run.allZones).2 ++ run.output.warnings.filter PageWarning.isConvergence := by
  rw [run.filter_isConvergence]
  exact List.append_assoc ..

/-- A warning of a run about a reconstruction reports one that was cut off. -/
theorem cutOff_of_mem {step : String} {iterations : Nat} (run : s.Run input)
    (h : .convergence step iterations ∈ run.output.warnings) : s.CutOff run.gray step iterations := by
  have hmem : .convergence step iterations ∈ run.found.warnings ++ run.parts.warnings := by
    rw [← run.filter_isConvergence]
    exact List.mem_filter.mpr ⟨h, rfl⟩
  have hreports : s.Reports run.gray (.convergence step iterations) := (List.mem_append.mp hmem).elim
    ((pictures_annotated run.format_gray run.pictures_eq).all _)
    ((separate_warnings run.format_gray run.separate_eq).1 _)
  obtain ⟨_, _, heq, hcut⟩ := hreports
  obtain ⟨rfl, rfl⟩ := PageWarning.convergence.inj heq
  exact hcut

/-- In debug mode the images of a run carry the warnings about reconstructions, up to those of a foreground that is
binarized on its own. -/
theorem exists_unshown (run : s.Run input) (hdebug : s.debug = true) :
    ∃ area own, s.reservedArea run.found.value.layers = .ok area ∧ s.Unshown run.gray area own ∧
      run.output.warnings.filter PageWarning.isConvergence = shotWarnings run.output.snapshots ++ own := by
  have hfound := (pictures_annotated run.format_gray run.pictures_eq).shown
  obtain ⟨_, area, own, harea, hown, hparts⟩ := separate_warnings run.format_gray run.separate_eq
  refine ⟨area, own, harea, hown, ?_⟩
  have hshots : shotWarnings run.output.snapshots = run.found.warnings ++ shotWarnings run.parts.snapshots := by
    rw [output, hdebug, if_pos rfl]
    rw [shotWarnings_append, shotWarnings_append, shotWarnings_append, hfound,
      workingCopies_shotWarnings run.workingCopies_eq, List.nil_append]
    exact List.append_nil _
  rw [run.filter_isConvergence, hparts, hshots, List.append_assoc]

end Run

/-- A warning of a page about a reconstruction reports one that was cut off at the diagonal of the page, and its
count is that of the reconstruction unless this filled the holes of a picture mask. -/
theorem process_cutOff (s : PageSettings) (input : Raster) (cancelled : Bool) (out : PageOutput)
    (h : s.process input cancelled = .ok out) :
    ∃ run : s.normalized.Run input, run.output = out ∧ ∀ step iterations,
      .convergence step iterations ∈ out.warnings → s.normalized.CutOff run.gray step iterations := by
  obtain ⟨run, rfl⟩ := exists_run h
  exact ⟨run, rfl, fun _ _ hmem => run.cutOff_of_mem hmem⟩

/-- The warnings of a mixed page of eight pixels begin with the one about its second zone, which has two corners
only, and each of the others reports a reconstruction that was cut off at the diagonal of the page: one behind the
pictures, or that of the paper behind the text or behind its foreground. -/
theorem process_cutOff_beside_flat_zone :
    let page : Raster := ⟨.gray8, .standard,
      ⟨⟨4, 2, by decide, by decide⟩, #[9, 60, 120, 180, 240, 30, 90, 250], rfl⟩⟩
    let added := Zone.rect 1.0 0.0 2.0 1.0 .pictureAdd
    let flat : Zone := ⟨.polygon [⟨0.0, 0.0⟩, ⟨3.0, 1.0⟩], .fill, none⟩
    let s : PageSettings :=
      { outputMode := .mixed
        threshold := .gatos .standard Threshold.defaultScale Threshold.defaultNoise 0
        zones := [added, flat]
        mixed := { foregroundLayer := true }
        foregroundAdjustment := 1 }
    ∃ out, s.process page false = .ok out ∧ ∃ run : s.normalized.Run page, run.output = out ∧
      run.zones = [added] ∧ ∃ others, out.warnings = .invalidZone 1 (.polygon (.tooFewVertices 2)) :: others ∧
        ∀ w ∈ others, ∃ step iterations, w = .convergence step iterations ∧
          s.normalized.CutOff run.gray step iterations := by
  intro page added flat s
  have hcolors : ∀ z ∈ s.zones, z.ColorInRange := by
    simp only [s, List.forall_mem_cons]
    exact ⟨nofun, nofun, nofun⟩
  obtain ⟨out, hout, _⟩ := process_returns_of_no_target s page (by decide) hcolors rfl
  obtain ⟨run, hrun, hcut⟩ := process_cutOff s page false out hout
  have hzones : Zone.sift run.allZones = ([added], [(1, .polygon (.tooFewVertices 2))]) := by
    rw [run.allZones_of_no_target rfl]
    exact Zone.sift_beside_flat (by decide +kernel)
  have hwarnings := run.warnings_eq
  rw [hzones, hrun] at hwarnings
  refine ⟨out, hout, run, hrun, by rw [Run.zones, hzones], _, hwarnings, fun w hw => ?_⟩
  obtain ⟨hmem, hconvergence⟩ := List.mem_filter.mp hw
  cases w with
  | convergence step iterations => exact ⟨step, iterations, rfl, hcut step iterations hmem⟩
  | invalidZone place reason => exact absurd hconvergence Bool.false_ne_true

/-- The warnings of a page in debug mode about reconstructions are those that its images carry, in order, and then
those of a foreground that is binarized on its own. -/
theorem process_shotWarnings (s : PageSettings) (input : Raster) (cancelled : Bool) (out : PageOutput)
    (hdebug : s.debug = true) (h : s.process input cancelled = .ok out) :
    ∃ run : s.normalized.Run input, run.output = out ∧ ∃ area own,
      s.normalized.reservedArea run.found.value.layers = .ok area ∧ s.normalized.Unshown run.gray area own ∧
      out.warnings.filter PageWarning.isConvergence = shotWarnings out.snapshots ++ own := by
  obtain ⟨run, rfl⟩ := exists_run h
  exact ⟨run, rfl, run.exists_unshown hdebug⟩

/-- The foreground of a mixed page of eight pixels is binarized on its own. So the page warns first of its second
zone, which has two corners only, then as its images do, and at last as the text of the foreground, which no image
shows. -/
theorem process_shotWarnings_own_foreground :
    let page : Raster := ⟨.gray8, .standard,
      ⟨⟨4, 2, by decide, by decide⟩, #[9, 60, 120, 180, 240, 30, 90, 250], rfl⟩⟩
    let added := Zone.rect 1.0 0.0 2.0 1.0 .pictureAdd
    let flat : Zone := ⟨.polygon [⟨0.0, 0.0⟩, ⟨3.0, 1.0⟩], .fill, none⟩
    let s : PageSettings :=
      { outputMode := .mixed
        threshold := .gatos .standard Threshold.defaultScale Threshold.defaultNoise 0
        zones := [added, flat]
        mixed := { foregroundLayer := true }
        foregroundAdjustment := 1
        debug := true }
    s.debug = true ∧ ∃ out, s.process page false = .ok out ∧ ∃ run : s.normalized.Run page, run.output = out ∧
      run.zones = [added] ∧ ∃ area text, run.found.value.layers.pictureArea = .ok area ∧
      s.normalized.cleanText run.gray (s.normalized.threshold.withAdjustment 1) (some area) = .ok text ∧
      out.warnings = .invalidZone 1 (.polygon (.tooFewVertices 2)) ::
        (shotWarnings out.snapshots ++ text.warnings) := by
  intro page added flat s
  have hcolors : ∀ z ∈ s.zones, z.ColorInRange := by
    simp only [s, List.forall_mem_cons]
    exact ⟨nofun, nofun, nofun⟩
  obtain ⟨out, hout, _⟩ := process_returns_of_no_target s page (by decide) hcolors rfl
  obtain ⟨run, hrun, _, own, harea, hown, hshown⟩ := process_shotWarnings s page false out rfl hout
  have hzones : Zone.sift run.allZones = ([added], [(1, .polygon (.tooFewVertices 2))]) := by
    rw [run.allZones_of_no_target rfl]
    exact Zone.sift_beside_flat (by decide +kernel)
  have hwarnings := run.warnings_eq
  rw [hzones, hrun, hshown] at hwarnings
  have hrebinarizes : s.normalized.RebinarizesForeground := ⟨rfl, rfl, by decide⟩
  obtain ⟨hkeeps, _⟩ | ⟨_, text, htext, rfl⟩ := hown
  · exact absurd hrebinarizes hkeeps
  obtain ⟨area, hpictures, rfl⟩ := map_eq_ok.mp harea
  exact ⟨rfl, out, hout, run, hrun, by rw [Run.zones, hzones], area, text, hpictures, htext, hwarnings⟩

end PageSettings

end ScannedPage
