import Mathlib.Data.List.Nodup
import ScannedPage.Proofs.Page.Steps

/-!
# Debug mode shows the page and leaves it alone

No step reads the debug flag, so runs that differ in it only agree in everything but the images they show.
The names of these images follow the order of the steps, and no name comes twice.
-/

namespace ScannedPage

/-- Two outputs with one page: they agree in everything but the images between the steps. -/
def PageOutput.SamePage (a b : PageOutput) : Prop :=
  a.image = b.image ∧ a.pictureZones = b.pictureZones ∧ a.despeckle = b.despeckle ∧ a.warnings = b.warnings

/-- The names of the images, in order. -/
def shotNames (shots : List Snapshot) : List String := shots.map (·.name)

/-- Names of images in a row stand in a row. -/
theorem shotNames_append (a b : List Snapshot) : shotNames (a ++ b) = shotNames a ++ shotNames b :=
    List.map_append

/-- The names that images between the steps can have, in the order of the steps. -/
def stepNames : List String :=
  ["grayscale", "equalized", "picture-mask", "picture-zones", "binarization", "edges_smoothed", "despeckled",
    "foreground-mask", "composited"]

namespace PageSettings

variable {s : PageSettings}

/-- The output with the images that a run in debug mode shows, or without any. -/
def showing (debug : Bool) (out : PageOutput) : PageOutput :=
  { out with snapshots := if debug then out.snapshots else [] }

/-- A run under either flag is the run in debug mode with or without its images. -/
theorem processNormalized_debug (s : PageSettings) (debug : Bool) (input : Raster) :
    processNormalized { s with debug } input =
      showing debug <$> processNormalized { s with debug := true } input := by
  simp only [processNormalized, map_bind, map_pure]
  rfl

/-- A run that may be called off is the run in debug mode with or without its images. -/
theorem process_debug (s : PageSettings) (debug : Bool) (input : Raster) (cancelled : Bool) :
    process { s with debug } input cancelled =
      showing debug <$> process { s with debug := true } input cancelled := by
  simp only [process, map_bind]
  congr 1
  funext _
  exact processNormalized_debug s.normalized debug input

/-- The working copies are shown in gray, before and after they are evenly lit. -/
theorem workingCopies_names {source : Raster} {copies : Traced WorkingCopies}
    (h : s.workingCopies source = .ok copies) :
    (shotNames copies.snapshots).Sublist ["grayscale", "equalized"] := by
  rw [workingCopies] at h
  split at h
  · obtain ⟨base, _, h⟩ := bind_eq_ok.mp h
    exact pure_eq_ok.mp h ▸ List.Sublist.refl _
  · split at h
    · obtain ⟨gray, _, h⟩ := bind_eq_ok.mp h
      exact pure_eq_ok.mp h ▸ List.Sublist.refl _
    · exact pure_eq_ok.mp h ▸ List.sublist_append_left ["grayscale"] ["equalized"]

/-- Detection shows its mask and then its rectangles. -/
theorem detectPictures_names {gray : Raster} {found : Traced Pictures} (h : s.detectPictures gray = .ok found) :
    (shotNames found.snapshots).Sublist ["picture-mask", "picture-zones"] := by
  rw [detectPictures] at h
  dsimp only at h
  split at h
  · obtain ⟨mask, _, h⟩ := bind_eq_ok.mp h
    split at h
    · obtain ⟨rects, _, h⟩ := bind_eq_ok.mp h
      obtain ⟨boxes, _, h⟩ := bind_eq_ok.mp h
      exact pure_eq_ok.mp h ▸ List.Sublist.refl _
    · exact pure_eq_ok.mp h ▸ List.sublist_append_left ["picture-mask"] ["picture-zones"]
  · exact pure_eq_ok.mp h ▸ List.nil_sublist _

/-- The edits of zones show nothing. -/
theorem pictures_names {gray : Raster} {zones : List Zone} {found : Traced Pictures}
    (h : s.pictures gray zones = .ok found) :
    (shotNames found.snapshots).Sublist ["picture-mask", "picture-zones"] := by
  rw [pictures] at h
  split at h
  · obtain ⟨detected, hdetected, h⟩ := bind_eq_ok.mp h
    obtain ⟨layers, _, h⟩ := bind_eq_ok.mp h
    have hnames := detectPictures_names hdetected
    rw [← pure_eq_ok.mp h]
    exact hnames
  · exact pure_eq_ok.mp h ▸ List.nil_sublist _

section Text

variable {gray : Raster} {method : Threshold.Method Float} {area : Option Mask}

/-- The text is shown before and after its edges are smoothed. -/
theorem binarizeText_names {text : Traced Raster} (h : s.binarizeText gray method area = .ok text) :
    (shotNames text.snapshots).Sublist ["binarization", "edges_smoothed"] := by
  obtain ⟨⟨raw, estimate⟩, _, h⟩ := bind_eq_ok.mp h
  dsimp only at h
  split at h
  · obtain ⟨smooth, _, h⟩ := bind_eq_ok.mp h
    exact pure_eq_ok.mp h ▸ List.Sublist.refl _
  · exact pure_eq_ok.mp h ▸ List.sublist_append_left ["binarization"] ["edges_smoothed"]

/-- The clean text is shown last. -/
theorem cleanText_names {text : Traced CleanText} (h : s.cleanText gray method area = .ok text) :
    (shotNames text.snapshots).Sublist (["binarization", "edges_smoothed"] ++ ["despeckled"]) := by
  obtain ⟨raw, hraw, h⟩ := bind_eq_ok.mp h
  obtain ⟨⟨cleaned, report⟩, _, h⟩ := bind_eq_ok.mp h
  rw [← pure_eq_ok.mp h, shotNames_append]
  exact (binarizeText_names hraw).append (List.Sublist.refl _)

/-- The foreground shows its mask. -/
theorem foreground_names {zones : List Zone} {layers : Layers} {text : Raster} {front : Traced Layers}
    (h : s.foreground gray zones layers area text = .ok front) :
    (shotNames front.snapshots).Sublist ["foreground-mask"] := by
  rw [foreground] at h
  split at h
  · obtain ⟨ink, _, h⟩ := bind_eq_ok.mp h
    obtain ⟨mask, _, h⟩ := bind_eq_ok.mp h
    obtain ⟨layers', _, h⟩ := bind_eq_ok.mp h
    rw [← pure_eq_ok.mp h]
    cases layers'.foreground with
    | none => exact List.nil_sublist _
    | some m => exact List.Sublist.refl _
  · exact pure_eq_ok.mp h ▸ List.nil_sublist _

end Text

/-- Separation shows the text and then the foreground. -/
theorem separate_names {gray : Raster} {zones : List Zone} {layers : Layers} {parts : Traced Separation}
    (h : s.separate gray zones layers = .ok parts) :
    (shotNames parts.snapshots).Sublist
      (["binarization", "edges_smoothed"] ++ ["despeckled"] ++ ["foreground-mask"]) := by
  rw [separate_eq] at h
  split at h
  · obtain ⟨area, _, h⟩ := bind_eq_ok.mp h
    obtain ⟨text, htext, h⟩ := bind_eq_ok.mp h
    obtain ⟨front, hfront, h⟩ := bind_eq_ok.mp h
    rw [← pure_eq_ok.mp h, shotNames_append]
    exact (cleanText_names htext).append (foreground_names hfront)
  · exact pure_eq_ok.mp h ▸ List.nil_sublist _

/-- The images that a run shows follow the order of the steps. -/
theorem processNormalized_names {input : Raster} {out : PageOutput} (h : s.processNormalized input = .ok out) :
    (shotNames out.snapshots).Sublist stepNames := by
  obtain ⟨source, allZones, copies, found, parts, page, _, hcopies, hfound, hparts, _, _, hshots⟩ :=
    processNormalized_eq_ok h
  rw [hshots]
  split
  · rw [shotNames_append, shotNames_append, shotNames_append]
    have hnames := ((workingCopies_names hcopies).append (pictures_names hfound)).append (separate_names hparts)
    exact hnames.append (List.Sublist.refl ["composited"])
  · exact List.nil_sublist _

/-- Debug mode does not influence a page: runs that differ in the flag only end with the same fault or with
outputs of the same page; without the flag no image is shown, and with it the names of the images follow the
order of the steps without a repetition. -/
theorem process_debug_agrees (s : PageSettings) (input : Raster) (cancelled : Bool) :
    match process { s with debug := false } input cancelled, process { s with debug := true } input cancelled with
    | .error fault, .error fault' => fault = fault'
    | .ok plain, .ok shown => plain.SamePage shown ∧ plain.snapshots = [] ∧
        (shotNames shown.snapshots).Sublist stepNames ∧ (shotNames shown.snapshots).Nodup
    | _, _ => False := by
  rw [process_debug s false]
  cases hshown : process { s with debug := true } input cancelled with
  | error fault => rfl
  | ok shown =>
    obtain ⟨_, _, hrun⟩ := bind_eq_ok.mp hshown
    have hnames := processNormalized_names hrun
    have hnodup : stepNames.Nodup := by decide
    exact ⟨⟨rfl, rfl, rfl, rfl⟩, rfl, hnames, hnodup.sublist hnames⟩

end PageSettings

end ScannedPage
