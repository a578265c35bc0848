import ScannedPage.Proofs.Page.Steps
import ScannedPage.Proofs.Region.Picture

/-!
# Every step fits the page

From the shape of the page that a step is given follows that the step is not refused, and the shape of what
it makes: masks, layers and the images that show the step all have the size of the page.
-/

namespace ScannedPage

open Morphology (IsGray)

/-- A gray raster in shape is a gray raster of its size. -/
theorem Raster.HasShape.isGray {r : Raster} {s : Size} {p : Resolution} (h : r.HasShape .gray8 s p) :
    IsGray s r :=
  ⟨h.format_eq, h.size_eq⟩

section Illumination

open Illumination

variable {r : Raster} {s : Size} {p : Resolution} {f : PixelFormat}

/-- The window of the background has a side. -/
theorem Illumination.backgroundSide_pos (p : Resolution) : 0 < backgroundSide p :=
  Nat.lt_of_lt_of_le (by decide) (Nat.le_max_right _ 3)

/-- A level over any paper stays a level. -/
theorem Illumination.evenLevel_le {level : Nat} (h : level ≤ 255) (paper : Nat) :
    evenLevel level paper ≤ 255 := by
  rw [evenLevel]
  split
  · exact Nat.min_le_right _ _
  · exact h

/-- Even illumination keeps the shape of a channel. -/
theorem Illumination.evenChannel_returns (h : r.HasShape .gray8 s p) {side : Nat} (hside : 0 < side) :
    Returns (evenChannel r side) fun even => even.HasShape .gray8 s p := by
  obtain rfl := h.size_eq
  obtain rfl := h.resolution_eq
  refine ((Morphology.extremes_returns h.isGray .greatest hside hside).mapError _).bind fun paper _ =>
    returns_pure ?_
  exact Raster.hasShape_ofFn _ _ _ fun x y => evenLevel_le (h.word_le x y) _

/-- Even illumination keeps the shape of a page. -/
theorem Illumination.equalize_returns (h : r.HasShape f s p) : Returns (equalize r) fun even =>
    even.HasShape f s p := by
  have hside := backgroundSide_pos r.resolution
  have hchannel (g : Nat → Nat) (hg : ∀ v, g v < 256) :=
    evenChannel_returns (h.mapWords .gray8 fun v _ => Nat.le_of_lt_succ (hg v)) hside
  obtain rfl := h.size_eq
  obtain rfl := h.resolution_eq
  obtain rfl := h.format_eq
  simp only [equalize]
  cases hformat : r.format with
  | bit1 => exact returns_pure (hformat ▸ h)
  | gray8 => exact evenChannel_returns (hformat ▸ h) hside
  | rgb32 =>
    refine (hchannel Color.red Color.red_lt).bind fun red _ => ?_
    refine (hchannel Color.green Color.green_lt).bind fun green _ => ?_
    refine (hchannel Color.blue Color.blue_lt).bind fun blue _ => returns_pure ?_
    refine Raster.hasShape_ofFn _ _ _ fun x y => Color.compose_le ?_ ?_ ?_ <;> exact Nat.mod_lt _ (by decide)

end Illumination

section Layers

variable {l : Layers} {s : Size}

/-- Every layer has the size. -/
structure Layers.Sized (l : Layers) (s : Size) : Prop where
  auto : l.auto.size = s
  pictures : l.pictures.size = s
  foreground : ∀ m ∈ l.foreground, m.size = s

/-- Empty layers have the size they were made for. -/
theorem Layers.sized_empty (s : Size) : (Layers.empty s).Sized s := ⟨rfl, rfl, nofun⟩

/-- Layers of one size pass the check of their sides. -/
theorem Layers.Sized.checkSides_eq_ok (h : l.Sized s) : l.checkSides s.sides = .ok () := by
  have hlayer (role : String) {m : Mask} (hm : m.size = s) : Layers.checkLayer role m s.sides = .ok () :=
    if_pos (congrArg Size.sides hm)
  rw [Layers.checkSides, hlayer _ h.auto, hlayer _ h.pictures]
  cases hl : l.foreground with
  | none => rfl
  | some m => exact hlayer _ (h.foreground m hl)

/-- A zone keeps the size of every layer. -/
theorem Layers.Sized.applyZone (h : l.Sized s) (z : Zone) : (l.applyZone z).Sized s := by
  rw [Layers.applyZone]
  split
  · exact h
  · exact ⟨h.auto, h.pictures, h.foreground⟩
  · exact ⟨h.auto, h.pictures, h.foreground⟩
  · refine ⟨h.auto, h.pictures, fun m hm => ?_⟩
    obtain ⟨m', hm', rfl⟩ := Option.map_eq_some_iff.mp hm
    exact h.foreground m' hm'

/-- A list of zones keeps the size of every layer. -/
theorem Layers.Sized.foldl (h : l.Sized s) (zones : List Zone) : (zones.foldl Layers.applyZone l).Sized s := by
  induction zones generalizing l with
  | nil => exact h
  | cons z zones ih => exact ih (h.applyZone z)

/-- Zones act on layers of one size. -/
theorem Layers.Sized.applyZones_returns (h : l.Sized s) (zones : List Zone) :
    Returns (l.applyZones zones) fun l' => l'.Sized s := by
  have hsides : l.checkSides l.size.sides = .ok () := by
    rw [Layers.size, h.auto]
    exact h.checkSides_eq_ok
  rw [Layers.applyZones, hsides]
  exact returns_ok (h.foldl zones)

/-- Layers of one size have a picture area of this size. -/
theorem Layers.Sized.pictureArea_returns (h : l.Sized s) : Returns l.pictureArea fun m => m.size = s := by
  rw [Layers.pictureArea, Mask.or, Mask.combine, Mask.checkSides_eq_ok (h.pictures.trans h.auto.symm)]
  exact returns_ok h.auto

end Layers

/-- Every image has the size. -/
def ShotsSized (s : Size) (shots : List Snapshot) : Prop := ∀ shot ∈ shots, shot.image.size = s

/-- Images in a row have a size if those of both parts have it. -/
theorem ShotsSized.append {s : Size} {a b : List Snapshot} (ha : ShotsSized s a) (hb : ShotsSized s b) :
    ShotsSized s (a ++ b) := fun shot hshot =>
  (List.mem_append.mp hshot).elim (ha shot) (hb shot)

/-- Where there is no image, all images have any size. -/
theorem shotsSized_nil (s : Size) : ShotsSized s [] := nofun

/-- One more image of a size leaves all images of that size. -/
theorem ShotsSized.cons {s : Size} {shot : Snapshot} {shots : List Snapshot} (h : shot.image.size = s)
    (hshots : ShotsSized s shots) : ShotsSized s (shot :: shots) := fun other hother =>
  (List.mem_cons.mp hother).elim (fun heq => heq ▸ h) (hshots other)

/-- A single image of a size has that size. -/
theorem shotsSized_singleton {s : Size} {shot : Snapshot} (h : shot.image.size = s) : ShotsSized s [shot] :=
  (shotsSized_nil s).cons h

namespace PageSettings

variable {s : PageSettings} {size : Size} {p : Resolution} {gray : Raster}

/-- The working copies have the shape of the page, promoted and in gray. -/
theorem workingCopies_returns {source : Raster} {f : PixelFormat} (h : source.HasShape f size p) :
    Returns (s.workingCopies source) fun copies => copies.value.base.HasShape f.promoted size p ∧
      copies.value.gray.HasShape .gray8 size p ∧ ShotsSized size copies.snapshots := by
  have hbase := h.promote
  have hplain : source.promote.toGray.size = size := hbase.toGray.size_eq
  rw [workingCopies]
  split
  · refine (Illumination.equalize_returns hbase).bind fun base hb => returns_pure ?_
    exact ⟨hb, hb.toGray, (shotsSized_singleton hb.toGray.size_eq).cons hplain⟩
  · split
    · refine (Illumination.equalize_returns hbase.toGray).bind fun even heven => returns_pure ?_
      exact ⟨hbase, heven, (shotsSized_singleton heven.size_eq).cons hplain⟩
    · exact returns_pure ⟨hbase, hbase.toGray, shotsSized_singleton hplain⟩

/-- Detection gives layers of the size of the page. -/
theorem detectPictures_returns (h : IsGray size gray) (hs : s.pictureSensitivity ≤ Region.fullSensitivity) :
    Returns (s.detectPictures gray) fun found =>
      found.value.layers.Sized size ∧ ShotsSized size found.snapshots := by
  obtain rfl := h.2
  rw [detectPictures]
  dsimp only
  split
  · refine ((Region.pictureMask_returns h).mapError _).bind fun found hfound => ?_
    have hauto :
        (if s.mixed.autoLayer then found.mask else (Layers.empty gray.size).auto).size = gray.size := by
      split
      · exact hfound
      · rfl
    split
    · refine ((Region.detect_returns found.mask hs).mapError _).bind fun rects _ => ?_
      refine ((Region.rectsToMask_returns rects gray.size).mapError _).bind fun mask hmask => returns_pure ?_
      exact ⟨⟨hauto, hmask, nofun⟩, ShotsSized.cons hfound (shotsSized_singleton hmask)⟩
    · exact returns_pure ⟨⟨hauto, rfl, nofun⟩, shotsSized_singleton hfound⟩
  · exact returns_pure ⟨Layers.sized_empty _, shotsSized_nil _⟩

/-- The edits of zones leave layers of the size of the page. -/
theorem pictures_returns (h : IsGray size gray) (hs : s.pictureSensitivity ≤ Region.fullSensitivity)
    (zones : List Zone) : Returns (s.pictures gray zones) fun found =>
      found.value.layers.Sized size ∧ ShotsSized size found.snapshots := by
  rw [pictures]
  split
  · refine (detectPictures_returns h hs).bind fun found hfound => ?_
    exact (hfound.1.applyZones_returns zones).bind fun layers hlayers => returns_pure ⟨hlayers, hfound.2⟩
  · exact returns_pure ⟨h.2 ▸ Layers.sized_empty _, shotsSized_nil _⟩

/-- Clearing an area keeps the shape of a bilevel page. -/
theorem hasShape_clearArea {b : Raster} (h : b.HasShape .bit1 size p) (area : Option Mask) :
    (clearArea b area).HasShape .bit1 size p := by
  obtain rfl := h.size_eq
  obtain rfl := h.resolution_eq
  cases area with
  | none => exact h
  | some m =>
    rw [clearArea, h.format_eq]
    refine Raster.hasShape_ofFn _ _ _ fun x y => ?_
    split
    · exact Nat.zero_le _
    · exact h.word_le x y

/-- The mask of the text has the size of the picture area. -/
theorem size_textMask {area : Option Mask} (h : ∀ m ∈ area, m.size = size) :
    ∀ m ∈ textMask area, m.size = size := by
  intro m hm
  obtain ⟨hm, _⟩ := Option.filter_eq_some_iff.mp hm
  obtain ⟨m', hm', rfl⟩ := Option.map_eq_some_iff.mp hm
  exact h m' hm'

section Text

variable (hgray : gray.HasShape .gray8 size p) {area : Option Mask} (harea : ∀ m ∈ area, m.size = size)
include hgray harea

/-- The text of a page has its shape in black and white. -/
theorem binarizeText_returns (method : Threshold.Method Float) :
    Returns (s.binarizeText gray method area) fun text =>
    text.value.HasShape .bit1 size p ∧ ShotsSized size text.snapshots := by
  obtain rfl := hgray.resolution_eq
  refine ((Threshold.binarize_returns hgray.isGray method (size_textMask harea)).mapError _).bind
    fun (raw, estimate) hraw => ?_
  have hclear := hasShape_clearArea hraw area
  dsimp only
  split
  · refine ((Morphology.smoothEdges_returns hclear).mapError _).bind fun smooth hsmooth => returns_pure ?_
    have hsmooth := hasShape_clearArea hsmooth area
    exact ⟨hsmooth, (shotsSized_singleton hsmooth.size_eq).cons hclear.size_eq⟩
  · exact returns_pure ⟨hclear, shotsSized_singleton hclear.size_eq⟩

/-- The clean text of a page has its shape in black and white. -/
theorem cleanText_returns (method : Threshold.Method Float) : Returns (s.cleanText gray method area) fun text =>
    text.value.bilevel.HasShape .bit1 size p ∧ ShotsSized size text.snapshots := by
  refine (binarizeText_returns hgray harea method).bind fun text htext => ?_
  refine ((Region.despeckle_returns htext.1 s.despeckle gray.resolution).mapError _).bind
    fun (cleaned, report) hcleaned => returns_pure ?_
  exact ⟨hcleaned, htext.2.append (shotsSized_singleton hcleaned.size_eq)⟩

/-- The ink of the foreground has the shape of the page in black and white. -/
theorem foregroundInk_returns {text : Raster} (htext : text.HasShape .bit1 size p) :
    Returns (s.foregroundInk gray area text) fun ink => ink.value.HasShape .bit1 size p := by
  rw [foregroundInk]
  split
  · exact returns_pure htext
  · exact (cleanText_returns hgray harea _).bind fun own hown => returns_pure hown.1

/-- The foreground joins layers of the size of the page. -/
theorem foreground_returns {text : Raster} (htext : text.HasShape .bit1 size p) (zones : List Zone)
    {layers : Layers} (hlayers : layers.Sized size) :
    Returns (s.foreground gray zones layers area text) fun front =>
      front.value.Sized size ∧ ShotsSized size front.snapshots := by
  rw [foreground]
  split
  · refine (foregroundInk_returns hgray harea htext).bind fun ink hink => ?_
    refine ((Raster.toMask_returns hink.format_eq).mapError _).bind fun mask hmask => ?_
    have hfull : Layers.Sized { layers with foreground := some mask } size :=
      ⟨hlayers.auto, hlayers.pictures, fun m hm => Option.some.inj hm ▸ hmask.trans hink.size_eq⟩
    refine (hfull.applyZones_returns zones).bind fun layers' hlayers' => returns_pure ⟨hlayers', ?_⟩
    intro shot hshot
    obtain ⟨m, hm, rfl⟩ := List.mem_map.mp hshot
    exact hlayers'.foreground m (Option.mem_toList.mp hm)
  · exact returns_pure ⟨hlayers, shotsSized_nil _⟩

end Text

/-- The area reserved for pictures has the size of the page. -/
theorem reservedArea_returns {layers : Layers} (hlayers : layers.Sized size) :
    Returns (s.reservedArea layers) fun area => ∀ m ∈ area, m.size = size := by
  rw [reservedArea]
  split
  · exact hlayers.pictureArea_returns.map fun m hm m' hm' => Option.some.inj hm' ▸ hm
  · exact returns_pure fun m hm => absurd hm (Option.not_mem_none m)

/-- Text and layers have the size of the page, and there is a text unless the mode does without. -/
theorem separate_returns (hgray : gray.HasShape .gray8 size p) (zones : List Zone) {layers : Layers}
    (hlayers : layers.Sized size) : Returns (s.separate gray zones layers) fun parts =>
      (∀ b ∈ parts.value.bilevel, b.HasShape .bit1 size p) ∧
      (s.outputMode.binarizes = true → parts.value.bilevel.isSome = true) ∧
      parts.value.layers.Sized size ∧ ShotsSized size parts.snapshots := by
  rw [separate_eq]
  split
  · refine (reservedArea_returns hlayers).bind fun area harea => ?_
    refine (cleanText_returns hgray harea s.threshold).bind fun text htext => ?_
    refine (foreground_returns hgray harea htext.1 zones hlayers).bind fun front hfront => returns_pure ?_
    exact ⟨fun b hb => Option.some.inj hb ▸ htext.1, fun _ => rfl, hfront.1, htext.2.append hfront.2⟩
  · next hmode => exact returns_pure ⟨nofun, fun h => absurd h hmode, hlayers, shotsSized_nil _⟩

end PageSettings

end ScannedPage
