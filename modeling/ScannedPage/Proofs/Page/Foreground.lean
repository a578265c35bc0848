import ScannedPage.Proofs.Page.Mixed

/-!
# The foreground of a mixed page and its pictures

The foreground of a mixed page is the black of a clean text under the adjustment of the foreground, without the
pixels that zones take out of every layer; whether that text is made anew or is the text of the page already at
hand makes no difference. Zones act once before the text is made and once more with the foreground. The second
time changes nothing in the area of the pictures (`Layers.pictured_foldl_again`), and text is white there even
after smoothing. So neither the foreground nor the text meets the pictures that the page is composed from.
-/

namespace ScannedPage

/-- A mask accepted for the sides of a size has this size. -/
theorem Mask.size_of_checkSides {m : Mask} {size : Size} {done : Unit}
    (h : m.checkSides size.sides = .ok done) : m.size = size := by
  rw [checkSides] at h
  split at h
  · next hsides => exact Size.eq_of_sides_eq hsides
  · exact absurd h nofun

namespace Layers

/-- Pictures keep a pixel: it was detected, or lies in a rectangle. -/
def pictured (l : Layers) (x y : Nat) : Bool := l.auto.get x y || l.pictures.get x y

/-- The picture area holds the pixels that pictures keep. -/
theorem get_pictureArea {l : Layers} {area : Mask} (h : l.pictureArea = .ok area) (x y : Nat) :
    area.get x y = l.pictured x y := by
  obtain ⟨_, hsides, harea⟩ := bind_eq_ok.mp (mapError_eq_ok.mp h)
  have hsize := Mask.size_of_checkSides hsides
  rw [← pure_eq_ok.mp harea, Mask.get_ofFn, pictured]
  split
  · rfl
  · next hout =>
    have hauto : l.auto.get x y = false := Grid.getD_of_not_contains hout false
    have hpictures : l.pictures.get x y = false := Grid.getD_of_not_contains (hsize ▸ hout) false
    rw [hauto, hpictures, Bool.or_false]

/-- Zones that acted before leave the pictures as they are when they act again, whatever the foreground. -/
theorem pictured_foldl_again (l : Layers) (zones : List Zone) (foreground : Option Mask) (x y : Nat) :
    (zones.foldl applyZone { zones.foldl applyZone l with foreground }).pictured x y =
      (zones.foldl applyZone l).pictured x y := by
  have hsize : Layers.size { zones.foldl applyZone l with foreground } = l.size := size_foldl l zones
  have hauto : (zones.foldl applyZone { zones.foldl applyZone l with foreground }).auto.get x y =
      (zones.foldl applyZone l).auto.get x y := by
    rw [auto_foldl, hsize, auto_foldl]
    cases Zone.lastPictureTag? zones l.size x y <;> rfl
  have hpictures : (zones.foldl applyZone { zones.foldl applyZone l with foreground }).pictures.get x y =
      (zones.foldl applyZone l).pictures.get x y := by
    rw [Bool.eq_iff_iff, pictures_foldl, hsize, pictures_foldl]
    exact and_iff_left_of_imp And.right
  rw [pictured, pictured, hauto, hpictures]

end Layers

/-- A pixel that is white stays white when specks are removed. -/
theorem Region.word_despeckle {r : Raster} {policy : DespecklePolicy} {p : Resolution}
    {result : Raster × DespeckleReport} (h : despeckle r policy p = .ok result) {x y : Nat}
    (hwhite : r.word x y = 0) : result.1.word x y = 0 := by
  obtain ⟨_, _, h⟩ := bind_eq_ok.mp h
  split at h
  · rw [← pure_eq_ok.mp h]
    exact hwhite
  · obtain ⟨labeling, _, h⟩ := bind_eq_ok.mp h
    rw [← pure_eq_ok.mp h, Raster.word_ofFn]
    split
    · split
      · rfl
      · exact hwhite
    · rfl

/-- A method with its own adjustment is the method itself. -/
theorem Threshold.Method.withAdjustment_self {K : Type} (method : Method K) :
    method.withAdjustment method.adjustment = method := by
  cases method <;> rfl

namespace PageSettings

variable {s : PageSettings} {gray : Raster} {method : Threshold.Method Float} {area : Mask} {x y : Nat}

/-- A cleared area is white. -/
theorem word_clearArea (bilevel : Raster) (h : area.get x y = true) :
    (clearArea bilevel (some area)).word x y = 0 := by
  rw [clearArea, Raster.word_ofFn, if_pos h, ite_self]

/-- Text is white in the area of the pictures, with its edges smoothed or not. -/
theorem word_binarizeText {text : Traced Raster} (h : s.binarizeText gray method (some area) = .ok text)
    (harea : area.get x y = true) : text.value.word x y = 0 := by
  obtain ⟨⟨raw, estimate⟩, _, h⟩ := bind_eq_ok.mp h
  dsimp only at h
  split at h
  · obtain ⟨smooth, _, h⟩ := bind_eq_ok.mp h
    rw [← pure_eq_ok.mp h]
    exact word_clearArea smooth harea
  · rw [← pure_eq_ok.mp h]
    exact word_clearArea raw harea

/-- Clean text is white in the area of the pictures. -/
theorem word_cleanText {text : Traced CleanText} (h : s.cleanText gray method (some area) = .ok text)
    (harea : area.get x y = true) : text.value.bilevel.word x y = 0 := by
  obtain ⟨raw, hraw, h⟩ := bind_eq_ok.mp h
  obtain ⟨result, hresult, h⟩ := bind_eq_ok.mp h
  rw [← pure_eq_ok.mp h]
  exact Region.word_despeckle (mapError_eq_ok.mp hresult) (word_binarizeText hraw harea)

/-- The ink of the foreground is the clean text under its adjustment, also where the text at hand serves. -/
theorem foregroundInk_eq_ok {area : Option Mask} {text : Traced CleanText} {ink : Traced Raster}
    (htext : s.cleanText gray s.threshold area = .ok text)
    (h : s.foregroundInk gray area text.value.bilevel = .ok ink) :
    ∃ own, s.cleanText gray (s.threshold.withAdjustment s.foregroundAdjustment) area = .ok own ∧
      ink.value = own.value.bilevel := by
  rw [foregroundInk] at h
  split at h
  · next hagree =>
    refine ⟨text, ?_, ?_⟩
    · rw [hagree, Threshold.Method.withAdjustment_self, htext]
    · rw [← pure_eq_ok.mp h]
  · obtain ⟨own, hown, h⟩ := bind_eq_ok.mp h
    refine ⟨own, hown, ?_⟩
    rw [← pure_eq_ok.mp h]

/-- A mixed page with a foreground is separated into its text and the layers that the zones leave of the pictures
and the black of the ink. -/
theorem separate_foreground_eq_ok {zones : List Zone} {layers : Layers} {parts : Traced Separation}
    (hmode : s.outputMode = .mixed) (hlayer : s.mixed.foregroundLayer = true)
    (h : s.separate gray zones layers = .ok parts) :
    ∃ area text own ink,
      layers.pictureArea = .ok area ∧
      s.cleanText gray s.threshold (some area) = .ok text ∧
      s.cleanText gray (s.threshold.withAdjustment s.foregroundAdjustment) (some area) = .ok own ∧
      own.value.bilevel.toMask = .ok ink ∧
      parts.value.bilevel = some text.value.bilevel ∧
      parts.value.layers = zones.foldl Layers.applyZone { layers with foreground := some ink } := by
  have hbinarizes : s.outputMode.binarizes = true := by
    rw [hmode]
    rfl
  rw [separate_eq, if_pos hbinarizes, reservedArea, if_pos hmode] at h
  obtain ⟨_, hreserved, h⟩ := bind_eq_ok.mp h
  obtain ⟨area, harea, rfl⟩ := map_eq_ok.mp hreserved
  obtain ⟨text, htext, h⟩ := bind_eq_ok.mp h
  obtain ⟨front, hfront, h⟩ := bind_eq_ok.mp h
  rw [foreground, if_pos ⟨hmode, hlayer⟩] at hfront
  obtain ⟨ink, hink, hfront⟩ := bind_eq_ok.mp hfront
  obtain ⟨mask, hmask, hfront⟩ := bind_eq_ok.mp hfront
  obtain ⟨final, hfinal, hfront⟩ := bind_eq_ok.mp hfront
  obtain ⟨own, hown, hvalue⟩ := foregroundInk_eq_ok htext hink
  refine ⟨area, text, own, mask, harea, htext, hown, hvalue ▸ mapError_eq_ok.mp hmask, ?_, ?_⟩
  · rw [← pure_eq_ok.mp h]
  · rw [← pure_eq_ok.mp h, ← pure_eq_ok.mp hfront]
    exact Layers.applyZones_eq_ok hfinal

/-- The layer of detected pictures holds the pixels that the last zone for pictures adds. -/
theorem Run.get_auto_of_added {input : Raster} (run : s.Run input) (hmode : s.outputMode = .mixed)
    (hadd : Zone.lastPictureTag? run.zones run.base.size x y = some .pictureAdd) :
    run.layers.auto.get x y = true := by
  obtain ⟨l, hsize, hlayers⟩ := run.exists_layers hmode
  rw [hlayers, Layers.auto_foldl, hsize, hadd]
  rfl

/-- A mixed page with a foreground layer is composed from its clean text, and from layers whose foreground is the
black of the clean text under the adjustment of the foreground, without the pixels that a usable zone takes out of
every layer. Foreground and text both stay off the pictures among these layers. -/
theorem process_foreground (s : PageSettings) (input : Raster) (cancelled : Bool) (out : PageOutput)
    (hmode : s.outputMode = .mixed) (hlayer : s.mixed.foregroundLayer = true)
    (h : s.process input cancelled = .ok out) :
    ∃ run : s.normalized.Run input, run.output = out ∧ ∃ area text own front,
      run.found.value.layers.pictureArea = .ok area ∧
      s.normalized.cleanText run.gray s.normalized.threshold (some area) = .ok text ∧
      s.normalized.cleanText run.gray (s.normalized.threshold.withAdjustment s.foregroundAdjustment) (some area) =
        .ok own ∧
      run.parts.value.bilevel = some text.value.bilevel ∧ run.layers.foreground = some front ∧
      ∀ x y,
        (front.get x y = true ↔ own.value.bilevel.word x y ≠ 0 ∧
          ∀ z ∈ run.zones, z.tag = .pictureSubtractAll → ¬ z.Covers run.base.size x y) ∧
        (run.layers.auto.get x y = true ∨ run.layers.pictures.get x y = true →
          front.get x y = false ∧ text.value.bilevel.word x y = 0) := by
  obtain ⟨run, hrun⟩ := exists_run h
  obtain ⟨area, text, own, ink, harea, htext, hown, hink, hbilevel, hlayers⟩ :=
    separate_foreground_eq_ok (s := s.normalized) hmode hlayer run.separate_eq
  obtain ⟨l, hl⟩ := pictures_eq_ok (s := s.normalized) hmode run.pictures_eq
  have hsize : Layers.size { run.found.value.layers with foreground := some ink } = run.base.size := by
    obtain ⟨l', hsize', hl'⟩ := run.exists_layers hmode
    rw [← hsize', ← Layers.size_foldl l' run.zones, ← hl', Run.layers, hlayers]
    exact (Layers.size_foldl _ _).symm
  have hsome : run.layers.foreground.isSome = true := by
    rw [Run.layers, hlayers, Layers.isSome_foreground_foldl]
    rfl
  obtain ⟨front, hfront⟩ := Option.isSome_iff_exists.mp hsome
  have hink (x y : Nat) : front.get x y = true ↔ own.value.bilevel.word x y ≠ 0 ∧
      Layers.Spared run.zones run.base.size x y := by
    have hread : run.layers.front x y = front.get x y := by
      rw [Layers.front, hfront]
      rfl
    rw [← hread, Run.layers, hlayers, ← hsize, ← bne_iff_ne, ← Raster.get_toMask hink]
    exact Layers.front_foldl _ _ x y
  refine ⟨run, hrun, area, text, own, front, harea, htext, hown, hbilevel, hfront, fun x y => ⟨hink x y, ?_⟩⟩
  intro hpictured
  have hcleared : area.get x y = true := by
    rw [Layers.get_pictureArea harea, hl, ← Layers.pictured_foldl_again l _ (some ink), ← hl]
    rw [Run.layers, hlayers] at hpictured
    exact Bool.or_eq_true_iff.mpr hpictured
  refine ⟨eq_false_of_ne_true fun hset => ?_, word_cleanText htext hcleared⟩
  exact ((hink x y).mp hset).1 (word_cleanText hown hcleared)

/-- A mixed page of eight pixels with a foreground under an adjustment of its own, one zone that takes the left out
of every layer, and one that adds the middle of the upper row again. The foreground is the black of its own text
outside of the first zone. The second zone makes a picture of the pixels it covers; there is no foreground there,
and the text is white. -/
theorem process_foreground_beside_added :
    let page : Raster := ⟨.gray8, .standard,
      ⟨⟨4, 2, by decide, by decide⟩, #[9, 60, 120, 180, 240, 30, 90, 250], rfl⟩⟩
    let taken := Zone.rect 0.0 0.0 3.0 2.0 .pictureSubtractAll
    let added := Zone.rect 1.0 0.0 2.0 1.0 .pictureAdd
    let s : PageSettings :=
      { outputMode := .mixed
        zones := [taken, added]
        mixed := { foregroundLayer := true }
        foregroundAdjustment := 5 }
    s.outputMode = .mixed ∧ s.mixed.foregroundLayer = true ∧ ∃ out, s.process page false = .ok out ∧
      ∃ run : s.normalized.Run page, run.output = out ∧ run.zones = [taken, added] ∧ ∃ area text own front,
        run.found.value.layers.pictureArea = .ok area ∧
        s.normalized.cleanText run.gray (.otsu 0) (some area) = .ok text ∧
        s.normalized.cleanText run.gray (.otsu 5) (some area) = .ok own ∧
        run.parts.value.bilevel = some text.value.bilevel ∧ run.layers.foreground = some front ∧
        ∀ x y,
          (front.get x y = true ↔ own.value.bilevel.word x y ≠ 0 ∧ ¬ taken.Covers run.base.size x y) ∧
          (run.layers.auto.get x y = true ∨ run.layers.pictures.get x y = true →
            front.get x y = false ∧ text.value.bilevel.word x y = 0) ∧
          (added.Covers run.base.size x y → run.layers.auto.get x y = true) := by
  intro page taken added s
  have hcolors : ∀ z ∈ s.zones, z.ColorInRange := by
    simp only [s, List.forall_mem_cons]
    exact ⟨nofun, nofun, nofun⟩
  obtain ⟨out, hout, _⟩ := process_returns_of_no_target s page (by decide) hcolors rfl
  obtain ⟨run, hrun, area, text, own, front, harea, htext, hown, hbilevel, hfront, hpixels⟩ :=
    process_foreground s page false out rfl rfl hout
  have hzones : run.zones = [taken, added] := by
    have husable : [taken, added].all (·.fault?.isNone) = true := by decide +kernel
    rw [Run.zones, run.allZones_of_no_target rfl]
    exact congrArg Prod.fst
      (Zone.sift_of_usable fun z hz => Option.isNone_iff_eq_none.mp (List.all_eq_true.mp husable z hz))
  refine ⟨rfl, rfl, out, hout, run, hrun, hzones, area, text, own, front, harea, htext, hown, hbilevel, hfront, ?_⟩
  intro x y
  obtain ⟨hink, hoff⟩ := hpixels x y
  refine ⟨hink.trans (and_congr_right fun _ => ?_), hoff, fun hcover => ?_⟩
  · rw [hzones, List.forall_mem_cons, List.forall_mem_singleton]
    exact ⟨fun h => h.1 rfl, fun h => ⟨fun _ => h, fun hadd => absurd hadd (by decide)⟩⟩
  · refine run.get_auto_of_added rfl ?_
    rw [hzones]
    exact Zone.lastPictureTag?_concat [taken] (z := added) (by decide) hcover

end PageSettings

end ScannedPage
