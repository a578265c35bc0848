import ScannedPage.Proofs.Page.Steps

/-!
# Two runs with the same steps

Each zone is mapped to the working image by itself, so the zones of a run follow from those of the settings one by
one (`resample_eq`). Two settings records may differ in what a page does not need: if every step after resampling
is the same function under both, they end with the same fault, or with runs whose steps gave the same results
(`processNormalized_alike`).
-/

namespace ScannedPage.PageSettings

/-- The image that a page is worked on: at the target resolution, if there is one. -/
def workingImage (s : PageSettings) (input : Raster) : Except PageError Raster :=
  match s.targetResolution with
  | none => return input
  | some target =>
    if target = input.resolution then return input else (input.scaleToResolution target).mapError .ofImage

/-- A zone as it lies on the image that the page is worked on; without that image it stays. -/
def workingZone (s : PageSettings) (input : Raster) (z : Zone) : Zone :=
  match s.workingImage input with
  | .error _ => z
  | .ok source =>
    match s.targetResolution with
    | none => z
    | some target =>
      if target = input.resolution then z
      else z.scale (Float.ofNat source.width / Float.ofNat input.width)
        (Float.ofNat source.height / Float.ofNat input.height)

/-- All zones of the settings as they lie on the image that the page is worked on. -/
def workingZones (s : PageSettings) (input : Raster) : List Zone := s.zones.map (s.workingZone input)

/-- A zone keeps its tag on the way to the working image. -/
theorem tag_workingZone (s : PageSettings) (input : Raster) (z : Zone) : (s.workingZone input z).tag = z.tag := by
  rw [workingZone]
  split
  · rfl
  · split
    · rfl
    · split <;> rfl

/-- Resampling gives the image to work on and maps each zone by itself. -/
theorem resample_eq (s : PageSettings) (input : Raster) :
    s.resample input = (fun source => (source, s.workingZones input)) <$> s.workingImage input := by
  have hzone : s.workingZone input = fun z => s.workingZone input z := rfl
  rw [workingZones, hzone]
  simp only [resample, workingImage, workingZone]
  cases s.targetResolution with
  | none => simp [pure, Except.pure, Functor.map, Except.map]
  | some target =>
    dsimp only
    split
    · simp [pure, Except.pure, Functor.map, Except.map]
    · cases input.scaleToResolution target with
      | error fault => rfl
      | ok scaled => rfl

variable {s s' : PageSettings} {input : Raster}

/-- The zones of a run are those of the settings, each on the working image. -/
theorem Run.allZones_eq (run : s.Run input) : run.allZones = s.workingZones input := by
  have h := run.resample_eq
  rw [PageSettings.resample_eq] at h
  obtain ⟨_, _, h⟩ := map_eq_ok.mp h
  exact (Prod.mk.inj h).2.symm

/-- Two runs whose steps gave the same results, up to their zones. -/
structure Run.SameSteps (run : s.Run input) (run' : s'.Run input) : Prop where
  copies_eq : run'.copies = run.copies
  found_eq : run'.found = run.found
  parts_eq : run'.parts = run.parts
  page_eq : run'.page = run.page

/-- The steps after resampling are the same under two settings records, each with its own zones. -/
structure StepsAgree (s s' : PageSettings) (input : Raster) : Prop where
  outputMode_eq : s'.outputMode = s.outputMode
  targetResolution_eq : s'.targetResolution = s.targetResolution
  workingCopies_eq : ∀ source, s'.workingCopies source = s.workingCopies source
  pictures_eq : ∀ gray, s'.pictures gray (Zone.sift (s'.workingZones input)).1 =
    s.pictures gray (Zone.sift (s.workingZones input)).1
  separate_eq : ∀ gray layers, s'.separate gray (Zone.sift (s'.workingZones input)).1 layers =
    s.separate gray (Zone.sift (s.workingZones input)).1 layers

/-- Settings with the same target have the same image to work on. -/
theorem workingImage_congr (h : s'.targetResolution = s.targetResolution) (input : Raster) :
    s'.workingImage input = s.workingImage input := by
  rw [workingImage, workingImage, h]

/-- Settings with the same target place a zone alike. -/
theorem workingZone_congr (h : s'.targetResolution = s.targetResolution) (input : Raster) :
    s'.workingZone input = s.workingZone input := by
  funext z
  rw [workingZone, workingZone, workingImage_congr h, h]

/-- Settings under which the steps agree end with the same fault, or with runs of the same steps. -/
theorem processNormalized_alike (h : s.StepsAgree s' input) :
    Alike (fun out out' => ∃ (run : s.Run input) (run' : s'.Run input),
        run.output = out ∧ run'.output = out' ∧ run.SameSteps run')
      (s.processNormalized input) (s'.processNormalized input) := by
  have hresample : Alike (fun a b => s.resample input = .ok a ∧ s'.resample input = .ok b ∧
      b.1 = a.1 ∧ a.2 = s.workingZones input ∧ b.2 = s'.workingZones input)
      (s.resample input) (s'.resample input) := by
    rw [resample_eq, resample_eq, workingImage_congr h.targetResolution_eq]
    cases s.workingImage input with
    | error fault => exact .error fault
    | ok source => exact .ok ⟨rfl, rfl, rfl, rfl, rfl⟩
  refine hresample.bind fun ⟨source, zones⟩ ⟨source', zones'⟩ ⟨hrun, hrun', hsource, hzones, hzones'⟩ => ?_
  dsimp only at hsource hzones hzones' ⊢
  subst hsource hzones hzones'
  rw [h.workingCopies_eq]
  refine (Alike.refl _).bind fun copies copies' ⟨hcopies, hsame⟩ => ?_
  subst hsame
  rw [h.pictures_eq]
  refine (Alike.refl _).bind fun found found' ⟨hfound, hsame⟩ => ?_
  subst hsame
  rw [h.separate_eq]
  refine (Alike.refl _).bind fun parts parts' ⟨hparts, hsame⟩ => ?_
  subst hsame
  rw [h.outputMode_eq]
  refine (Alike.refl _).bind fun page page' ⟨hpage, hsame⟩ => .pure ?_
  subst hsame
  refine ⟨⟨source', _, _, _, _, _, hrun, hcopies, hfound, hparts, hpage⟩,
    ⟨source', _, _, _, _, _, hrun', ?_, ?_, ?_, ?_⟩, rfl, rfl, rfl, rfl, rfl, rfl⟩
  · rw [h.workingCopies_eq, hcopies]
  · rw [h.pictures_eq, hfound]
  · rw [h.separate_eq, hparts]
  · rw [h.outputMode_eq, hpage]

end ScannedPage.PageSettings
