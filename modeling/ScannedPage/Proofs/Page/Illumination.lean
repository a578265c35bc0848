import ScannedPage.Proofs.Colour
import ScannedPage.Proofs.Morphology.Extremes
import ScannedPage.Proofs.Morphology.Filling
import ScannedPage.Proofs.Page.Shapes

/-!
# Even illumination brightens

The paper around a pixel is the greatest sample of the window, and the pixel itself is in the window. So a sample
never exceeds its paper, and the quotient never exceeds white (`evenLevel_eq`). What remains is rounding down: a
paper of at most 255 stretches the distance between two samples, or leaves it as it is, so no two samples fall
together (`evenLevel_lt_iff`), only the paper itself turns white (`evenLevel_eq_white_iff`), and only black stays
black.

A page is treated channel by channel, and each channel is found again in the words of the result (`Evens`). The
page is brightened because each of its channels is (`Evens.brightens`).
-/

namespace ScannedPage

open Morphology (windowAround mem_windowAround_iff self_mem_spanAround extremes_over_window)

/-- The channels of a word that hold the light of a pixel. A bilevel pixel has none. -/
def PixelFormat.channels : PixelFormat → List (Nat → Nat)
  | .bit1 => []
  | .gray8 => [id]
  | .rgb32 => [Color.red, Color.green, Color.blue]

/-- What is said of each channel of a colour is said of red, green and blue. -/
theorem PixelFormat.forall_colourChannels {P : (Nat → Nat) → Prop} (hred : P Color.red) (hgreen : P Color.green)
    (hblue : P Color.blue) : ∀ channel ∈ PixelFormat.rgb32.channels, P channel := by
  simp only [channels, List.forall_mem_cons]
  exact ⟨hred, hgreen, hblue, nofun⟩

/-- The sample of a channel at a position. -/
def Raster.sample (r : Raster) (channel : Nat → Nat) (p : Nat × Nat) : Nat := channel (r.word p.1 p.2)

namespace Illumination

/-- The positions of the background around a pixel. -/
def background (r : Raster) (p : Nat × Nat) : Set (Nat × Nat) :=
  windowAround r.size (backgroundSide r.resolution) (backgroundSide r.resolution) p

/-- A channel is divided by its paper, the greatest sample in the background. -/
def Evens (r even : Raster) (channel : Nat → Nat) : Prop :=
  ∀ p : Nat × Nat, r.size.Contains p.1 p.2 → ∃ paper, IsGreatest (r.sample channel '' background r p) paper ∧
    even.sample channel p = evenLevel (r.sample channel p) paper

/-- A channel is brightened towards the greatest sample in the background, which turns white. -/
structure Brightens (r even : Raster) (channel : Nat → Nat) : Prop where
  le : ∀ p : Nat × Nat, r.size.Contains p.1 p.2 → r.sample channel p ≤ even.sample channel p
  le_white : ∀ p : Nat × Nat, r.size.Contains p.1 p.2 → even.sample channel p ≤ 255
  black_iff : ∀ p : Nat × Nat, r.size.Contains p.1 p.2 → (even.sample channel p = 0 ↔ r.sample channel p = 0)
  white_iff : ∀ p : Nat × Nat, r.size.Contains p.1 p.2 → (even.sample channel p = 255 ↔
    r.sample channel p ≠ 0 ∧ IsGreatest (r.sample channel '' background r p) (r.sample channel p))
  lt_iff : ∀ p q : Nat × Nat, r.size.Contains p.1 p.2 → r.size.Contains q.1 q.2 →
    ∀ paper, IsGreatest (r.sample channel '' background r p) paper →
      IsGreatest (r.sample channel '' background r q) paper →
        (even.sample channel p < even.sample channel q ↔ r.sample channel p < r.sample channel q)
  quotient : ∀ p : Nat × Nat, r.size.Contains p.1 p.2 →
    ∃ paper, IsGreatest (r.sample channel '' background r p) paper ∧
    (0 < paper ∧ even.sample channel p = r.sample channel p * 255 / paper ∨
      paper = 0 ∧ r.sample channel p = 0 ∧ even.sample channel p = 0)

section Levels

variable {level level' paper : Nat}

/-- A level up to its paper is divided by it, and the quotient is a level. -/
theorem evenLevel_eq (hpos : 0 < paper) (h : level ≤ paper) : evenLevel level paper = level * 255 / paper := by
  have hle : level * 255 / paper ≤ 255 := Nat.div_le_of_le_mul (Nat.mul_le_mul_right 255 h)
  rw [evenLevel, if_pos hpos, Nat.min_eq_left hle]

/-- Black stays black over any paper. -/
theorem evenLevel_zero (paper : Nat) : evenLevel 0 paper = 0 := by
  rw [evenLevel]
  split <;> simp

/-- Division by the paper makes nothing darker. -/
theorem le_evenLevel (h : level ≤ paper) (hpaper : paper ≤ 255) : level ≤ evenLevel level paper := by
  rcases Nat.eq_zero_or_pos paper with rfl | hpos
  · obtain rfl := Nat.le_zero.mp h
    exact Nat.zero_le _
  · rw [evenLevel_eq hpos h, Nat.le_div_iff_mul_le hpos]
    exact Nat.mul_le_mul_left level hpaper

/-- A lesser level over the same paper stays the lesser one. -/
theorem evenLevel_lt (hlt : level < level') (h : level' ≤ paper) (hpaper : paper ≤ 255) :
    evenLevel level paper < evenLevel level' paper := by
  have hpos : 0 < paper := Nat.lt_of_lt_of_le (Nat.zero_lt_of_lt hlt) h
  rw [evenLevel_eq hpos (Nat.le_trans hlt.le h), evenLevel_eq hpos h]
  calc level * 255 / paper < level * 255 / paper + 1 := Nat.lt_succ_self _
    _ = (level * 255 + paper) / paper := (Nat.add_div_right _ hpos).symm
    _ ≤ level' * 255 / paper := Nat.div_le_div_right (by omega)

/-- Levels over one paper have the same order before and after the division. -/
theorem evenLevel_lt_iff (h : level ≤ paper) (h' : level' ≤ paper) (hpaper : paper ≤ 255) :
    evenLevel level paper < evenLevel level' paper ↔ level < level' := by
  refine ⟨fun hlt => Nat.lt_of_not_le fun hle => ?_, fun hlt => evenLevel_lt hlt h' hpaper⟩
  rcases hle.lt_or_eq with hgt | rfl
  · exact Nat.lt_asymm hlt (evenLevel_lt hgt h hpaper)
  · exact Nat.lt_irrefl _ hlt

/-- Division by the paper turns nothing else than black into black. -/
theorem evenLevel_eq_zero_iff (h : level ≤ paper) (hpaper : paper ≤ 255) :
    evenLevel level paper = 0 ↔ level = 0 := by
  constructor
  · intro hzero
    exact Nat.le_zero.mp (Nat.le_trans (le_evenLevel h hpaper) hzero.le)
  · rintro rfl
    exact evenLevel_zero paper

/-- Division by the paper turns only the paper white. -/
theorem evenLevel_eq_white_iff (h : level ≤ paper) (hpaper : paper ≤ 255) :
    evenLevel level paper = 255 ↔ level ≠ 0 ∧ level = paper := by
  constructor
  · intro hwhite
    have hne : level ≠ 0 := by
      rintro rfl
      exact absurd (hwhite.symm.trans (evenLevel_zero paper)) (by decide)
    refine ⟨hne, Nat.le_antisymm h (Nat.le_of_not_lt fun hlt => ?_)⟩
    have habove := evenLevel_lt hlt le_rfl hpaper
    have hbelow := evenLevel_le hpaper paper
    omega
  · rintro ⟨hne, rfl⟩
    rw [evenLevel_eq (Nat.pos_of_ne_zero hne) le_rfl, Nat.mul_div_cancel_left 255 (Nat.pos_of_ne_zero hne)]

end Levels

section Channels

variable {r even : Raster} {channel : Nat → Nat}

/-- A pixel is in its own background. -/
theorem self_mem_background {p : Nat × Nat} (hp : r.size.Contains p.1 p.2) : p ∈ background r p :=
  have hside := backgroundSide_pos r.resolution
  mem_windowAround_iff.mpr ⟨self_mem_spanAround hside hp.1, self_mem_spanAround hside hp.2⟩

/-- The paper is a level that no sample in front of it exceeds. -/
theorem Evens.divides (h : Evens r even channel) (hchannel : ∀ p, r.sample channel p ≤ 255) {p : Nat × Nat}
    (hp : r.size.Contains p.1 p.2) {paper : Nat} (hpaper : IsGreatest (r.sample channel '' background r p) paper) :
    r.sample channel p ≤ paper ∧ paper ≤ 255 ∧ even.sample channel p = evenLevel (r.sample channel p) paper := by
  obtain ⟨paper', hpaper', heven⟩ := h p hp
  obtain rfl := hpaper.unique hpaper'
  obtain ⟨q, _, hq⟩ := hpaper.1
  exact ⟨hpaper.2 (Set.mem_image_of_mem _ (self_mem_background hp)), hq ▸ hchannel q, heven⟩

/-- Every position has a paper. -/
theorem Evens.exists_paper (h : Evens r even channel) (hchannel : ∀ p, r.sample channel p ≤ 255) {p : Nat × Nat}
    (hp : r.size.Contains p.1 p.2) : ∃ paper, IsGreatest (r.sample channel '' background r p) paper ∧
      r.sample channel p ≤ paper ∧ paper ≤ 255 ∧ even.sample channel p = evenLevel (r.sample channel p) paper := by
  obtain ⟨paper, hpaper, _⟩ := h p hp
  exact ⟨paper, hpaper, h.divides hchannel hp hpaper⟩

/-- A channel divided by its paper is brightened. -/
theorem Evens.brightens (h : Evens r even channel) (hchannel : ∀ p, r.sample channel p ≤ 255) :
    Brightens r even channel where
  le p hp := by
    obtain ⟨paper, _, hle, hbyte, heven⟩ := h.exists_paper hchannel hp
    exact heven ▸ le_evenLevel hle hbyte
  le_white p hp := by
    obtain ⟨paper, _, _, _, heven⟩ := h.exists_paper hchannel hp
    exact heven ▸ evenLevel_le (hchannel p) paper
  black_iff p hp := by
    obtain ⟨paper, _, hle, hbyte, heven⟩ := h.exists_paper hchannel hp
    rw [heven, evenLevel_eq_zero_iff hle hbyte]
  white_iff p hp := by
    obtain ⟨paper, hpaper, hle, hbyte, heven⟩ := h.exists_paper hchannel hp
    rw [heven, evenLevel_eq_white_iff hle hbyte]
    exact and_congr_right fun _ => ⟨fun heq => heq ▸ hpaper, fun hself => hself.unique hpaper⟩
  lt_iff p q hp hq paper hatp hatq := by
    obtain ⟨hlep, hbyte, hevenp⟩ := h.divides hchannel hp hatp
    obtain ⟨hleq, _, hevenq⟩ := h.divides hchannel hq hatq
    rw [hevenp, hevenq, evenLevel_lt_iff hlep hleq hbyte]
  quotient p hp := by
    obtain ⟨paper, hpaper, hle, _, heven⟩ := h.exists_paper hchannel hp
    refine ⟨paper, hpaper, ?_⟩
    rcases Nat.eq_zero_or_pos paper with rfl | hpos
    · have hdark := Nat.le_zero.mp hle
      exact Or.inr ⟨rfl, hdark, heven.trans (hdark ▸ evenLevel_zero 0)⟩
    · exact Or.inl ⟨hpos, heven.trans (evenLevel_eq hpos hle)⟩

/-- A gray page is divided by the paper that a dilation finds. -/
theorem evenChannel_evens (h : r.IsGrayPage) : Returns (evenChannel r (backgroundSide r.resolution)) fun even =>
    even.HasShape .gray8 r.size r.resolution ∧ Evens r even id := by
  have hside := backgroundSide_pos r.resolution
  have hlevel : r.level = r.sample id := funext h.level_eq
  obtain ⟨paper, hpaper, _, hgreatest⟩ := extremes_over_window .greatest h.isGray hside hside
  obtain ⟨even, heven, hshape⟩ := evenChannel_returns h hside
  refine ⟨even, heven, hshape, fun p hp => ⟨paper.word p.1 p.2, hlevel ▸ hgreatest p hp, ?_⟩⟩
  rw [evenChannel, Morphology.dilate, hpaper] at heven
  rw [← pure_eq_ok.mp heven, Raster.sample, Raster.word_ofFn, if_pos hp]
  rfl

/-- What evens a channel on its own as a gray page evens it on the page of all channels. -/
theorem Evens.of_plane {plane : Raster} (h : Evens (r.mapWords .gray8 channel) plane id)
    (heven : ∀ p : Nat × Nat, r.size.Contains p.1 p.2 → even.sample channel p = plane.sample id p) :
    Evens r even channel := by
  have hsample {p : Nat × Nat} (hp : r.size.Contains p.1 p.2) :
      (r.mapWords .gray8 channel).sample id p = r.sample channel p := by
    rw [Raster.mapWords_eq_ofFn, Raster.sample, Raster.word_ofFn, if_pos hp]
    rfl
  intro p hp
  obtain ⟨paper, hgreatest, hplane⟩ := h p hp
  have hsamples : (r.mapWords .gray8 channel).sample id '' background (r.mapWords .gray8 channel) p =
      r.sample channel '' background r p := Set.image_congr fun q hq => hsample hq.1
  exact ⟨paper, hsamples ▸ hgreatest, by rw [heven p hp, hplane, hsample hp]⟩

end Channels

variable {r : Raster}

/-- A page in colour is divided by its paper channel by channel, and comes out opaque. -/
theorem equalize_colour_evens (h : r.HasShape .rgb32 r.size r.resolution) : Returns (equalize r) fun even =>
    (∀ channel ∈ PixelFormat.rgb32.channels, Evens r even channel) ∧
      ∀ p : Nat × Nat, r.size.Contains p.1 p.2 → even.word p.1 p.2 % 256 = 255 := by
  have hplane (channel : Nat → Nat) (hchannel : ∀ v, channel v < 256) :=
    evenChannel_evens (h.mapWords .gray8 fun v _ => Nat.le_of_lt_succ (hchannel v)).isGrayPage
  simp only [equalize, h.format_eq]
  refine (hplane Color.red Color.red_lt).bind fun red hredPlane => ?_
  refine (hplane Color.green Color.green_lt).bind fun green hgreenPlane => ?_
  refine (hplane Color.blue Color.blue_lt).bind fun blue hbluePlane => returns_pure ?_
  obtain ⟨hredShape, hred⟩ := hredPlane
  obtain ⟨hgreenShape, hgreen⟩ := hgreenPlane
  obtain ⟨hblueShape, hblue⟩ := hbluePlane
  have hredLt (p : Nat × Nat) := hredShape.isGrayPage.word_lt p.1 p.2
  have hgreenLt (p : Nat × Nat) := hgreenShape.isGrayPage.word_lt p.1 p.2
  have hblueLt (p : Nat × Nat) := hblueShape.isGrayPage.word_lt p.1 p.2
  have hword {p : Nat × Nat} (hp : r.size.Contains p.1 p.2) :
      (Raster.ofFn .rgb32 r.resolution r.size fun x y => Color.compose (red.word x y % 256) (green.word x y % 256)
        (blue.word x y % 256)).word p.1 p.2 =
      Color.compose (red.word p.1 p.2) (green.word p.1 p.2) (blue.word p.1 p.2) := by
    rw [Raster.word_ofFn, if_pos hp, Nat.mod_eq_of_lt (hredLt p), Nat.mod_eq_of_lt (hgreenLt p),
      Nat.mod_eq_of_lt (hblueLt p)]
  refine ⟨PixelFormat.forall_colourChannels (hred.of_plane fun p hp => ?red) (hgreen.of_plane fun p hp => ?green)
    (hblue.of_plane fun p hp => ?blue), fun p hp => ?solid⟩
  case red => exact (congrArg Color.red (hword hp)).trans (Color.red_compose (hredLt p) (hgreenLt p) (hblueLt p))
  case green => exact (congrArg Color.green (hword hp)).trans (Color.green_compose (hgreenLt p) (hblueLt p))
  case blue => exact (congrArg Color.blue (hword hp)).trans (Color.blue_compose (hblueLt p))
  case solid =>
    rw [hword hp, Color.compose]
    omega

/-- Every channel of a page is divided by its paper. -/
theorem equalize_evens (h : r.InRange) : Returns (equalize r) fun even =>
    even.HasShape r.format r.size r.resolution ∧ (∀ channel ∈ r.format.channels, Evens r even channel) ∧
      (r.format = .rgb32 → ∀ p : Nat × Nat, r.size.Contains p.1 p.2 → even.word p.1 p.2 % 256 = 255) := by
  obtain ⟨even, heven, hshape⟩ := equalize_returns h.hasShape
  refine ⟨even, heven, hshape, ?_⟩
  cases hformat : r.format with
  | bit1 => exact ⟨fun channel hnone => absurd hnone List.not_mem_nil, fun hcolour => absurd hcolour (by decide)⟩
  | gray8 =>
    have hgray : r.IsGrayPage := ⟨hformat, rfl, rfl, h⟩
    simp only [equalize, hformat] at heven
    refine ⟨fun channel hchannel => ?_, fun hcolour => absurd hcolour (by decide)⟩
    obtain rfl := List.mem_singleton.mp hchannel
    exact ((evenChannel_evens hgray).of_eq_ok heven).2
  | rgb32 =>
    obtain ⟨hevens, hopaque⟩ := (equalize_colour_evens ⟨hformat, rfl, rfl, h⟩).of_eq_ok heven
    exact ⟨hevens, fun _ => hopaque⟩

/-- The samples of a channel are levels. -/
theorem sample_le (h : r.InRange) : ∀ channel ∈ r.format.channels, ∀ p, r.sample channel p ≤ 255 := by
  have hword := h.hasShape.word_le
  cases hformat : r.format with
  | bit1 => exact fun channel hnone => absurd hnone List.not_mem_nil
  | gray8 =>
    rw [hformat] at hword
    exact List.forall_mem_singleton.mpr fun p => hword p.1 p.2
  | rgb32 =>
    exact PixelFormat.forall_colourChannels (fun p => Nat.le_of_lt_succ (Color.red_lt _))
      (fun p => Nat.le_of_lt_succ (Color.green_lt _)) fun p => Nat.le_of_lt_succ (Color.blue_lt _)

/-- Even illumination brightens every channel of a gray page or of one in colour towards the greatest sample around
each pixel: nothing turns darker, only black stays black, and only the greatest sample turns white. Samples with
the same paper keep their order, nothing is divided by a paper without light, and colours come out opaque. -/
theorem equalize_brightens (h : r.InRange) : ∃ even, equalize r = .ok even ∧
    even.HasShape r.format r.size r.resolution ∧ (∀ channel ∈ r.format.channels, Brightens r even channel) ∧
      (r.format = .rgb32 → ∀ p : Nat × Nat, r.size.Contains p.1 p.2 → even.word p.1 p.2 % 256 = 255) := by
  obtain ⟨even, heven, hshape, hevens, hopaque⟩ := equalize_evens h
  exact ⟨even, heven, hshape,
    fun channel hchannel => (hevens channel hchannel).brightens (sample_le h channel hchannel), hopaque⟩

/-- At ten dots per inch the background reaches one pixel to each side. The orange pixel in the middle is its own
paper in red, has less light than its neighbours in green, and none at all in blue. -/
theorem equalize_brightens_colour_row :
    let page : Raster := ⟨.rgb32, ⟨10, 10⟩,
      ⟨⟨3, 1, by decide, by decide⟩, #[0x64c80aff, 0xc8640000, 0x32c80080], rfl⟩⟩
    page.InRange ∧ ∃ even, equalize page = .ok even ∧ even.words = #[0x7fffffff, 0xff7f00ff, 0x3fff00ff] ∧
      (∀ channel ∈ PixelFormat.rgb32.channels, Brightens page even channel) ∧ even.word 2 0 % 256 = 255 := by
  intro page
  have hrange : page.InRange := by decide
  obtain ⟨even, heven, _, hbrightens, hopaque⟩ := equalize_brightens hrange
  have hwords : (equalize page).toOption.map Raster.words = some #[0x7fffffff, 0xff7f00ff, 0x3fff00ff] := by
    decide +kernel
  rw [heven] at hwords
  exact ⟨hrange, even, heven, Option.some.inj hwords, hbrightens, hopaque rfl (2, 0) (by decide)⟩

end Illumination

end ScannedPage
