import ScannedPage.Proofs.Page.Shapes

/-!
# Which pages have an output, and its shape

A page has an output unless it should be resampled from a resolution without dots on some axis. The output
has the size and the resolution of the resampled page, a format that follows from the mode, every word in
range, and images of the same size from all steps.
-/

namespace ScannedPage

section Compose

variable {base : Raster} {f : PixelFormat} {size : Size} {p : Resolution}

/-- A binarization of the size of the page serves a mode that needs one. -/
theorem requireBilevel_eq_ok {b : Raster} (h : b.HasShape .bit1 size p) (mode : OutputMode) :
    requireBilevel size.sides (some b) mode = .ok b := by
  simp only [requireBilevel, h.size_eq, ne_eq, not_true, if_false, Raster.requireFormat_eq_ok h.format_eq]
  rfl

/-- The delivered format of a mode for a base image. -/
def OutputMode.format (mode : OutputMode) (f : PixelFormat) : PixelFormat :=
  if mode = .blackAndWhite then .bit1 else f

/-- A page that is not bilevel is its own base image. -/
theorem Raster.promote_eq_self {r : Raster} (h : r.format ≠ .bit1) : r.promote = r := if_neg h

/-- Base, binarization and layers of one size compose to a page of this size. -/
theorem compose_returns (hbase : base.HasShape f size p) (hf : f ≠ .bit1) {bilevel : Option Raster}
    (hb : ∀ b ∈ bilevel, b.HasShape .bit1 size p) {mode : OutputMode}
    (hmode : mode.binarizes = true → bilevel.isSome = true) {l : Layers} (hl : l.Sized size) :
    Returns (compose base bilevel l mode) fun page => page.HasShape (mode.format f) size p := by
  obtain rfl := hbase.size_eq
  obtain rfl := hbase.resolution_eq
  cases mode with
  | colorOrGrayscale => exact returns_pure hbase
  | blackAndWhite =>
    obtain ⟨b, rfl⟩ := Option.isSome_iff_exists.mp (hmode rfl)
    exact ⟨b, requireBilevel_eq_ok (hb b rfl) .blackAndWhite, hb b rfl⟩
  | mixed =>
    obtain ⟨b, rfl⟩ := Option.isSome_iff_exists.mp (hmode rfl)
    have hformat : base.format ≠ .bit1 := hbase.format_eq ▸ hf
    simp only [compose, requireBilevel_eq_ok (hb b rfl), hl.checkSides_eq_ok, Raster.promote_eq_self hformat]
    refine returns_ok ?_
    obtain rfl := hbase.format_eq
    refine Raster.hasShape_ofFn _ _ _ fun x y => ?_
    split
    · exact hbase.word_le x y
    · split
      · exact PixelFormat.blackWord_le _
      · exact PixelFormat.whiteWord_le _

end Compose

section Fill

/-- The colour of a zone is a word of 32 bits. -/
def Zone.ColorInRange (z : Zone) : Prop := ∀ color ∈ z.fillColor, color < 2 ^ 32

/-- An opaque colour is a word in range. -/
theorem Color.solid_le {word : Nat} (h : word < 2 ^ 32) : Color.solid word ≤ PixelFormat.rgb32.maxValue := by
  simp only [Color.solid, PixelFormat.maxValue]
  omega

/-- A fill colour becomes a word in the range of the format. -/
theorem fillWord_le (f : PixelFormat) {color : Nat} (h : color < 2 ^ 32) : fillWord f color ≤ f.maxValue := by
  cases f with
  | bit1 =>
    simp only [fillWord]
    split <;> decide
  | gray8 => exact Nat.le_of_lt_succ (Color.luminance_lt color)
  | rgb32 => exact Color.solid_le h

variable {r : Raster} {f : PixelFormat} {size : Size} {p : Resolution}

/-- Filling a zone keeps the shape of a page. -/
theorem hasShape_fillZone (h : r.HasShape f size p) {z : Zone} (hz : z.ColorInRange) :
    (fillZone r z).HasShape f size p := by
  obtain rfl := h.size_eq
  obtain rfl := h.resolution_eq
  obtain rfl := h.format_eq
  have hcolor : z.fillColor.getD Color.white < 2 ^ 32 := by
    cases hc : z.fillColor with
    | none => decide
    | some color => exact hz color hc
  refine Raster.hasShape_ofFn _ _ _ fun x y => ?_
  split
  · exact fillWord_le _ hcolor
  · exact h.word_le x y

/-- Filling zones keeps the shape of a page. -/
theorem hasShape_fillZones (h : r.HasShape f size p) {zones : List Zone}
    (hzones : ∀ z ∈ zones, z.ColorInRange) :
    (fillZones r zones).HasShape f size p := by
  have hfold (zones : List Zone) (hzones : ∀ z ∈ zones, z.ColorInRange) (r : Raster) (h : r.HasShape f size p) :
      (zones.foldl fillZone r).HasShape f size p := by
    induction zones generalizing r with
    | nil => exact h
    | cons z zones ih =>
      have hz := hasShape_fillZone h (hzones z List.mem_cons_self)
      exact ih (fun z' hz' => hzones z' (List.mem_cons_of_mem z hz')) _ hz
  exact hfold _ (fun z hz => hzones z (List.mem_filter.mp hz).1) r h

end Fill

namespace PageSettings

/-- The resolution to resample a page to, if it should be another than the page has. -/
def resampleTarget? (s : PageSettings) (input : Raster) : Option Resolution :=
  s.normalized.targetResolution.filter (· ≠ input.resolution)

/-- The size of the resampled page. -/
def outputSize (s : PageSettings) (input : Raster) : Size :=
  match s.resampleTarget? input with
  | none => input.size
  | some target => input.size.resampled input.resolution target

/-- The resolution of the resampled page. -/
def outputResolution (s : PageSettings) (input : Raster) : Resolution :=
  (s.resampleTarget? input).getD input.resolution

/-- The format of the output of a page. -/
def outputFormat (s : PageSettings) (input : Raster) : PixelFormat := s.outputMode.format input.format.promoted

/-- The page cannot be resampled as it should: some axis of its resolution has no dots. -/
def Refuses (s : PageSettings) (input : Raster) (target : Resolution) : Prop :=
  s.normalized.targetResolution = some target ∧ target ≠ input.resolution ∧
    (input.resolution.horizontal = 0 ∨ input.resolution.vertical = 0)

/-- An output of the size, the resolution and the format that the settings ask for. -/
structure Delivers (s : PageSettings) (input : Raster) (out : PageOutput) : Prop where
  size_eq : out.image.size = s.outputSize input
  resolution_eq : out.image.resolution = s.outputResolution input
  format_eq : out.image.format = s.outputFormat input
  size_words : out.image.words.size = out.image.width * out.image.height
  inRange : out.image.InRange
  snapshots : ShotsSized (s.outputSize input) out.snapshots

variable {s : PageSettings} {input : Raster}

/-- A target that is left in the settings has dots on both axes. -/
theorem valid_of_target {target : Resolution} (h : s.normalized.targetResolution = some target) :
    target.valid = true :=
  (Option.filter_eq_some_iff.mp h).2

/-- A page is resampled to the target in the settings, unless it has this resolution. -/
theorem resampleTarget?_eq_some_iff {target : Resolution} : s.resampleTarget? input = some target ↔
    s.normalized.targetResolution = some target ∧ target ≠ input.resolution := by
  rw [resampleTarget?, Option.filter_eq_some_iff, decide_eq_true_iff]

/-- A resolution is not valid when some axis has no dots. -/
theorem valid_eq_false_iff {p : Resolution} : p.valid = false ↔ p.horizontal = 0 ∨ p.vertical = 0 := by
  rw [Resolution.valid, decide_eq_false_iff_not]
  omega

/-- A page that cannot be resampled ends with the fault that says so. -/
theorem resample_eq_error {target : Resolution} (h : s.Refuses input target) :
    s.normalized.resample input = .error (.image (.zeroResolution input.resolution target)) := by
  obtain ⟨htarget, hne, hzero⟩ := h
  have herror : input.scaleToResolution target = .error (.zeroResolution input.resolution target) :=
    Raster.scaleToResolution_eq_error (Or.inl (valid_eq_false_iff.mpr hzero))
  simp only [resample, htarget, hne, if_false, herror]
  rfl

/-- A page that can be resampled gets the shape of the output, and its zones keep their colours. -/
theorem resample_returns (hin : input.InRange) (hcolors : ∀ z ∈ s.zones, z.ColorInRange)
    (harea : ∀ target, s.resampleTarget? input = some target → input.resolution.valid = true →
      (input.size.resampled input.resolution target).area < 2 ^ 31) (hok : ∀ target, ¬ s.Refuses input target) :
    Returns (s.normalized.resample input) fun page =>
      page.1.HasShape input.format (s.outputSize input) (s.outputResolution input) ∧
      ∀ z ∈ page.2, z.ColorInRange := by
  cases hresample : s.resampleTarget? input with
  | none =>
    have hsize : s.outputSize input = input.size := by rw [outputSize, hresample]
    have hresolution : s.outputResolution input = input.resolution := by rw [outputResolution, hresample]; rfl
    rw [hsize, hresolution, resample]
    cases htarget : s.normalized.targetResolution with
    | none => exact returns_pure ⟨hin.hasShape, hcolors⟩
    | some target =>
      have heq : target = input.resolution := by
        by_contra hne
        exact absurd (resampleTarget?_eq_some_iff.mpr ⟨htarget, hne⟩) (by rw [hresample]; simp)
      simp only [heq, if_true]
      exact returns_pure ⟨hin.hasShape, hcolors⟩
  | some target =>
    have hsize : s.outputSize input = input.size.resampled input.resolution target := by
      rw [outputSize, hresample]
    have hresolution : s.outputResolution input = target := by rw [outputResolution, hresample]; rfl
    obtain ⟨htarget, hne⟩ := resampleTarget?_eq_some_iff.mp hresample
    have hvalid : input.resolution.valid = true := by
      by_contra hzero
      exact hok target ⟨htarget, hne, valid_eq_false_iff.mp (eq_false_of_ne_true hzero)⟩
    have hscale := Raster.scaleToResolution_returns hin.hasShape hvalid (valid_of_target htarget) (Ne.symm hne)
      (harea target hresample hvalid)
    rw [hsize, hresolution]
    simp only [resample, htarget, hne, if_false]
    refine (hscale.mapError _).bind fun scaled hscaled => returns_pure ⟨hscaled, fun z hz => ?_⟩
    obtain ⟨z', hz', rfl⟩ := List.mem_map.mp hz
    exact hcolors z' hz'

/-- A page that can be resampled has the output that its settings ask for. -/
theorem processNormalized_returns (hin : input.InRange) (hcolors : ∀ z ∈ s.zones, z.ColorInRange)
    (harea : ∀ target, s.resampleTarget? input = some target → input.resolution.valid = true →
      (input.size.resampled input.resolution target).area < 2 ^ 31) (hok : ∀ target, ¬ s.Refuses input target) :
    Returns (s.normalized.processNormalized input) (s.Delivers input) := by
  have hsensitivity : s.normalized.pictureSensitivity ≤ Region.fullSensitivity := Nat.min_le_right _ _
  refine (resample_returns hin hcolors harea hok).bind fun (source, allZones) hsource => ?_
  refine (workingCopies_returns hsource.1).bind fun copies ⟨hbase, hgray, hcopies⟩ => ?_
  refine (pictures_returns hgray.isGray hsensitivity _).bind fun found ⟨hlayers, hfound⟩ => ?_
  refine (separate_returns hgray _ hlayers).bind fun parts ⟨htext, hsome, hparts, hseparated⟩ => ?_
  refine (compose_returns hbase input.format.promoted_ne_bit1 htext hsome hparts).bind fun page hpage => ?_
  have hcolors' : ∀ z ∈ (Zone.sift allZones).1, z.ColorInRange := fun z hz =>
    hsource.2 z (List.mem_filter.mp hz).1
  have hshape := hasShape_fillZones hpage hcolors'
  refine returns_pure
    ⟨hshape.size_eq, hshape.resolution_eq, hshape.format_eq, Grid.size_cells _, hshape.inRange, ?_⟩
  split
  · exact ((hcopies.append hfound).append hseparated).append (shotsSized_singleton hpage.size_eq)
  · exact shotsSized_nil _

/-- A page in range that keeps its resolution is never refused. -/
theorem process_returns_of_no_target (s : PageSettings) (input : Raster) (hin : input.InRange)
    (hcolors : ∀ z ∈ s.zones, z.ColorInRange) (hkeep : s.targetResolution = none) :
    Returns (s.process input false) (s.Delivers input) := by
  have hnone (target : Resolution) : s.normalized.targetResolution ≠ some target := by
    rw [normalized, hkeep]
    exact nofun
  rw [process_false]
  exact processNormalized_returns hin hcolors
    (fun target h => absurd (resampleTarget?_eq_some_iff.mp h).1 (hnone target)) (fun target h => hnone target h.1)

/-- A page in range that is not called off is refused only when it should be resampled from a resolution
without dots on some axis; every other page has the output that its settings ask for. -/
theorem process_total (s : PageSettings) (input : Raster) (hin : input.InRange)
    (hcolors : ∀ z ∈ s.zones, z.ColorInRange)
    (harea : ∀ target, s.resampleTarget? input = some target → input.resolution.valid = true →
      (input.size.resampled input.resolution target).area < 2 ^ 31) :
    (∀ fault, s.process input false = .error fault ↔
      ∃ target, s.Refuses input target ∧ fault = .image (.zeroResolution input.resolution target)) ∧
    ∀ out, s.process input false = .ok out → s.Delivers input out := by
  by_cases hrefuse : ∃ target, s.Refuses input target
  · obtain ⟨target, htarget⟩ := hrefuse
    have herror : s.process input false = .error (.image (.zeroResolution input.resolution target)) := by
      have hresample := resample_eq_error htarget
      rw [process_false, processNormalized, hresample]
      rfl
    rw [herror]
    refine ⟨fun fault => ⟨fun h => ⟨target, htarget, (Except.error.inj h).symm⟩, ?_⟩, nofun⟩
    rintro ⟨target', htarget', rfl⟩
    rw [Option.some.inj (htarget.1.symm.trans htarget'.1)]
  · obtain ⟨out, hout, hdelivers⟩ := processNormalized_returns hin hcolors harea fun target h =>
    hrefuse ⟨target, h⟩
    rw [process_false, hout]
    refine ⟨fun fault => ⟨nofun, fun ⟨target, h, _⟩ => absurd ⟨target, h⟩ hrefuse⟩, fun out' h => ?_⟩
    exact Except.ok.inj h ▸ hdelivers

/-- A mixed page of two black pixels at twice its resolution is four pixels wide and two high, in gray. -/
theorem process_two_pixels :
    ∃ out, process { outputMode := .mixed, targetResolution := some (.uniform 600), debug := true }
        ⟨.gray8, .uniform 300, Grid.filled ⟨2, 1, by decide, by decide⟩ 0⟩ false = .ok out ∧
      out.image.size.sides = (4, 2) ∧ out.image.format = .gray8 := by
  obtain ⟨hfault, hout⟩ := process_total
    { outputMode := .mixed, targetResolution := some (.uniform 600), debug := true }
    ⟨.gray8, .uniform 300, Grid.filled ⟨2, 1, by decide, by decide⟩ 0⟩ (by decide) nofun fun target htarget _ => by
      obtain rfl : Resolution.uniform 600 = target := Option.some.inj htarget
      decide
  cases hprocess : process { outputMode := .mixed, targetResolution := some (.uniform 600), debug := true }
      ⟨.gray8, .uniform 300, Grid.filled ⟨2, 1, by decide, by decide⟩ 0⟩ false with
  | error fault =>
    obtain ⟨target, ⟨_, _, hzero⟩, _⟩ := (hfault fault).mp hprocess
    exact absurd hzero (by decide)
  | ok out =>
    have hdelivers := hout out hprocess
    exact ⟨out, rfl, by rw [hdelivers.size_eq]; decide, by rw [hdelivers.format_eq]; decide⟩

end PageSettings

end ScannedPage
