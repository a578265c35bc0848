import ScannedPage.Proofs.Raster

/-!
# Gray pages in colour

A gray page turned into colour shows its levels in every channel. So reading a channel gives the gray page
back (`IsGrayPage.mapWords_toRgb`), and resampling before or after the turn makes the same page
(`IsGrayPage.scaleToResolution_alike`).
-/

namespace ScannedPage

/-- A map over a map is the map of both functions in a row. -/
theorem Grid.map_map {α β γ : Type} (g : Grid α) (f : α → β) (f' : β → γ) :
    (g.map f).map f' = g.map (f' ∘ f) := by
  refine Grid.ext_get? rfl fun x y => ?_
  rw [get?_map, get?_map, get?_map, Option.map_map]

namespace Raster

/-- A gray page whose words are levels. -/
def IsGrayPage (r : Raster) : Prop := r.HasShape .gray8 r.size r.resolution

/-- A gray page and the same page in colour. -/
def Twin (gray colour : Raster) : Prop := gray.IsGrayPage ∧ colour = gray.toRgb

/-- Any raster of a gray shape is a gray page. -/
theorem HasShape.isGrayPage {r : Raster} {s : Size} {p : Resolution} (h : r.HasShape .gray8 s p) :
    r.IsGrayPage := by
  obtain rfl := h.size_eq
  obtain rfl := h.resolution_eq
  exact h

/-- Words replaced twice are words replaced by both functions in a row. -/
theorem mapWords_mapWords (r : Raster) (f f' : PixelFormat) (g g' : Nat → Nat) :
    (r.mapWords f g).mapWords f' g' = r.mapWords f' (g' ∘ g) :=
  congrArg (Raster.mk f' r.resolution) (r.pixels.map_map g g')

/-- Rules that agree inside draw one raster. -/
theorem ofFn_congr (f : PixelFormat) (p : Resolution) {s : Size} {w w' : Nat → Nat → Nat}
    (hw : ∀ x y, s.Contains x y → w x y = w' x y) : ofFn f p s w = ofFn f p s w' := by
  refine congrArg (Raster.mk f p) (Grid.ext_get? rfl fun x y => ?_)
  rw [Grid.get?_ofFn, Grid.get?_ofFn]
  split
  · next hxy => rw [hw x y hxy]
  · rfl

/-- A raster with its words replaced is drawn by the rule that replaces the word at each position. -/
theorem mapWords_eq_ofFn (r : Raster) (f : PixelFormat) (g : Nat → Nat) :
    r.mapWords f g = ofFn f r.resolution r.size fun x y => g (r.word x y) := by
  refine congrArg (Raster.mk f r.resolution) (Grid.ext_get? rfl fun x y => ?_)
  rw [Grid.get?_map, Grid.get?_ofFn]
  split
  · next hxy =>
    rw [word, Grid.getD]
    cases hv : r.pixels.get? x y with
    | none => exact absurd hxy (Grid.get?_eq_none.mp hv)
    | some v => rfl
  · next hxy => rw [Grid.get?_eq_none.mpr hxy, Option.map_none]

/-- A page in colour is in colour. -/
theorem format_toRgb (r : Raster) : r.toRgb.format = .rgb32 := by
  rw [toRgb]
  split
  · assumption
  · rfl

namespace IsGrayPage

variable {r : Raster} (h : r.IsGrayPage)
include h

/-- The words of a gray page are levels. -/
theorem word_lt (x y : Nat) : r.word x y < 256 := Nat.lt_succ_of_le (h.word_le x y)

/-- A gray page in colour, as a replacement of its words. -/
theorem toRgb_eq : r.toRgb = r.mapWords .rgb32 fun v => Color.compose (v % 256) (v % 256) (v % 256) := by
  have hne : r.format ≠ .rgb32 := by
    rw [h.format_eq]
    decide
  rw [toRgb, if_neg hne, h.format_eq]
  rfl

/-- A gray page in colour is drawn in colour, with each level in all channels. -/
theorem toRgb_eq_ofFn : r.toRgb = ofFn .rgb32 r.resolution r.size fun x y =>
    Color.compose (r.word x y) (r.word x y) (r.word x y) := by
  rw [h.toRgb_eq, mapWords_eq_ofFn]
  refine ofFn_congr _ _ fun x y _ => ?_
  rw [Nat.mod_eq_of_lt (h.word_lt x y)]

/-- A gray page in colour has the level of the gray page in all channels. -/
theorem word_toRgb {x y : Nat} (hxy : r.size.Contains x y) :
    r.toRgb.word x y = Color.compose (r.word x y) (r.word x y) (r.word x y) := by
  rw [h.toRgb_eq_ofFn, word_ofFn, if_pos hxy]

/-- A gray page in colour keeps its size. -/
theorem size_toRgb : r.toRgb.size = r.size := by
  rw [h.toRgb_eq]
  rfl

/-- A gray page in colour keeps its width. -/
theorem width_toRgb : r.toRgb.width = r.width := congrArg Size.width h.size_toRgb

/-- A gray page in colour keeps its height. -/
theorem height_toRgb : r.toRgb.height = r.height := congrArg Size.height h.size_toRgb

/-- A gray page in colour keeps its resolution. -/
theorem resolution_toRgb : r.toRgb.resolution = r.resolution := by
  rw [h.toRgb_eq]
  rfl

section Channel

variable {channel : Nat → Nat} (hchannel : ∀ v < 256, channel (Color.compose v v v) = v)
include hchannel

/-- A channel of a gray page in colour is the gray page. -/
theorem mapWords_toRgb : r.toRgb.mapWords .gray8 channel = r := by
  rw [h.toRgb_eq, mapWords_mapWords, ← h.format_eq]
  refine congrArg (Raster.mk r.format r.resolution) (Grid.ext_get? rfl fun x y => ?_)
  rw [Grid.get?_map]
  cases hv : r.pixels.get? x y with
  | none => rfl
  | some v =>
    have hle := h.inRange x y v hv
    rw [h.format_eq] at hle
    have hlt : v < 256 := Nat.lt_succ_of_le hle
    rw [Option.map_some, Function.comp_apply, Nat.mod_eq_of_lt hlt, hchannel v hlt]

/-- A channel reads the levels of the gray page, inside and outside. -/
theorem channel_word_toRgb (hzero : channel 0 = 0) (x y : Nat) :
    channel (r.toRgb.word x y) = r.word x y := by
  have hread := congrArg (fun page : Raster => page.word x y) (h.mapWords_toRgb hchannel)
  simp only [word, mapWords, Grid.getD, Grid.get?_map] at hread
  rw [word, Grid.getD]
  cases hv : r.toRgb.pixels.get? x y with
  | none =>
    rw [hv] at hread
    exact hzero.trans hread
  | some v =>
    rw [hv] at hread
    exact hread

end Channel

omit h in
/-- Pages drawn in gray and in colour are one page when each colour has the level in all channels. -/
theorem twin_ofFn (p : Resolution) (s : Size) {level colour : Nat → Nat → Nat} (hlevel : ∀ x y, level x y < 256)
    (hcolour : ∀ x y, s.Contains x y → colour x y = Color.compose (level x y) (level x y) (level x y)) :
    Twin (ofFn .gray8 p s level) (ofFn .rgb32 p s colour) := by
  have hgray := (hasShape_ofFn .gray8 p s fun x y => Nat.le_of_lt_succ (hlevel x y)).isGrayPage
  refine ⟨hgray, ?_⟩
  rw [hgray.toRgb_eq_ofFn]
  refine ofFn_congr _ _ fun x y hxy => ?_
  rw [word_ofFn, if_pos hxy, hcolour x y hxy]

/-- The gray view of a gray page in colour is the gray page. -/
theorem toGray_toRgb : r.toRgb.toGray = r := by
  have hne : r.toRgb.format ≠ .gray8 := by
    rw [format_toRgb]
    decide
  rw [toGray, if_neg hne, format_toRgb]
  exact h.mapWords_toRgb fun v => Color.luminance_compose_self

section Resampling

/-- Each channel of a word between four others lies between their levels. -/
theorem wordBetween_toRgb (x y : Nat) (stepX stepY : Float) : r.toRgb.wordBetween x y stepX stepY =
    Color.compose (r.wordBetween x y stepX stepY) (r.wordBetween x y stepX stepY)
      (r.wordBetween x y stepX stepY) := by
  have hred := h.channel_word_toRgb (fun v hv => Color.red_compose hv hv hv) rfl
  have hgreen := h.channel_word_toRgb (fun v hv => Color.green_compose hv hv) rfl
  have hblue := h.channel_word_toRgb (fun v hv => Color.blue_compose (r := v) (g := v) hv) rfl
  have hlevel (x y : Nat) : r.word x y % 256 = r.word x y := Nat.mod_eq_of_lt (h.word_lt x y)
  simp only [wordBetween, format_toRgb, h.format_eq, h.width_toRgb, h.height_toRgb, hred, hgreen, hblue,
    hlevel]

/-- A word between four levels is a level. -/
theorem wordBetween_lt (x y : Nat) (stepX stepY : Float) : r.wordBetween x y stepX stepY < 256 := by
  have hne : r.format ≠ .bit1 := by
    rw [h.format_eq]
    decide
  have hle := wordBetween_le hne x y stepX stepY
  rw [h.format_eq] at hle
  exact Nat.lt_succ_of_le hle

/-- Resampling to a size goes alike on a gray page and on the page in colour. -/
theorem scaleToSides_alike (width height : Nat) :
    Alike Twin (r.scaleToSides width height .bilinear) (r.toRgb.scaleToSides width height .bilinear) := by
  have hgray : ¬ (r.format = .bit1 ∨ Resampling.bilinear = .nearest) := by
    rw [h.format_eq]
    decide
  have hcolour : ¬ (r.toRgb.format = .bit1 ∨ Resampling.bilinear = .nearest) := by
    rw [format_toRgb]
    decide
  simp only [scaleToSides, h.size_toRgb, h.resolution_toRgb, h.width_toRgb, h.height_toRgb, if_neg hgray,
    if_neg hcolour]
  refine (Alike.refl (Size.ofSides width height)).bind fun s s' hs => ?_
  obtain ⟨_, rfl⟩ := hs
  split
  · exact .pure ⟨h, rfl⟩
  · rw [h.format_eq, format_toRgb]
    refine .pure (twin_ofFn _ _ (fun x y => h.wordBetween_lt x y _ _) fun x y _ => ?_)
    exact h.wordBetween_toRgb x y _ _

/-- Resampling to a resolution goes alike on a gray page and on the page in colour. -/
theorem scaleToResolution_alike (target : Resolution) :
    Alike Twin (r.scaleToResolution target) (r.toRgb.scaleToResolution target) := by
  simp only [scaleToResolution, h.resolution_toRgb, h.width_toRgb, h.height_toRgb]
  split
  · exact .error _
  · split
    · exact .pure ⟨h, rfl⟩
    · refine (h.scaleToSides_alike _ _).bind fun v w hvw => ?_
      obtain ⟨hv, hw⟩ := hvw
      refine .pure ⟨?_, ?_⟩
      · exact (HasShape.withResolution hv target).isGrayPage
      · rw [hw, hv.toRgb_eq, toRgb_eq (HasShape.withResolution hv target).isGrayPage]
        rfl

end Resampling

end IsGrayPage

end Raster

end ScannedPage
