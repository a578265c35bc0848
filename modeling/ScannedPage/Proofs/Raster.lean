import Mathlib.Algebra.Group.Nat.Defs
import ScannedPage.Page.Compose
import ScannedPage.Proofs.Grid
import ScannedPage.Proofs.Outcome
import ScannedPage.Raster.Scale

/-!
# The shape of rasters

The shape of a raster is its format, size and resolution, with every word in the range of the format
(`Raster.HasShape`). Each conversion and each resampling is described by the shape that it makes of the
shape it is given.
-/

namespace ScannedPage

/-- A mask of the expected sides is accepted. -/
theorem Mask.checkSides_eq_ok {m : Mask} {s : Size} (h : m.size = s) : m.checkSides s.sides = .ok () :=
  if_pos (congrArg Size.sides h)

/-- No place of an array holds what no reading of the grid gives. -/
theorem Grid.forall_cells {α : Type} {g : Grid α} (P : α → Prop) :
    (∀ v ∈ g.cells, P v) ↔ ∀ x y v, g.get? x y = some v → P v := by
  constructor
  · intro h x y v hv
    rw [get?] at hv
    split at hv
    · exact h v (Array.mem_of_getElem? hv)
    · exact absurd hv (by simp)
  · intro h v hv
    obtain ⟨i, hi, rfl⟩ := Array.mem_iff_getElem.mp hv
    have hin := Size.contains_mod_div (g.size_cells ▸ hi)
    refine h (i % g.size.width) (i / g.size.width) _ ?_
    rw [get?, if_pos hin, Size.index_mod_div, Array.getElem?_eq_getElem hi]

/-- The sides of a size make this size. -/
theorem Size.ofSides_sides (s : Size) : Size.ofSides s.width s.height = .ok s := by
  rw [Size.ofSides, dif_pos ⟨s.width_pos, s.height_pos⟩]

/-- The format that a base image has: bilevel pages turn gray. -/
def PixelFormat.promoted (f : PixelFormat) : PixelFormat := if f = .bit1 then .gray8 else f

/-- A promoted format can hold a picture. -/
theorem PixelFormat.promoted_ne_bit1 (f : PixelFormat) : f.promoted ≠ .bit1 := by
  cases f <;> decide

/-- Pure black is in the range of every format. -/
theorem PixelFormat.blackWord_le (f : PixelFormat) : f.blackWord ≤ f.maxValue := by
  cases f <;> decide

/-- Pure white is in the range of every format. -/
theorem PixelFormat.whiteWord_le (f : PixelFormat) : f.whiteWord ≤ f.maxValue := by
  cases f <;> decide

/-- A colour of three channels is a word in range. -/
theorem Color.compose_le {r g b : Nat} (hr : r < 256) (hg : g < 256) (hb : b < 256) :
    Color.compose r g b ≤ PixelFormat.rgb32.maxValue := by
  simp only [Color.compose, PixelFormat.maxValue]
  omega

/-- The red channel of any word is a level. -/
theorem Color.red_lt (word : Nat) : Color.red word < 256 := Nat.mod_lt _ (by decide)

/-- The green channel of any word is a level. -/
theorem Color.green_lt (word : Nat) : Color.green word < 256 := Nat.mod_lt _ (by decide)

/-- The blue channel of any word is a level. -/
theorem Color.blue_lt (word : Nat) : Color.blue word < 256 := Nat.mod_lt _ (by decide)

namespace Raster

/-- The pixel at a position is black. -/
def IsBlack (r : Raster) (p : Nat × Nat) : Prop := r.word p.1 p.2 ≠ 0

/-- Whether a pixel is black can be computed. -/
instance (r : Raster) (p : Nat × Nat) : Decidable (r.IsBlack p) := inferInstanceAs (Decidable (¬ _ = _))

/-- Words in range are a property of the data. -/
theorem inRange_iff {r : Raster} : r.InRange ↔ ∀ v ∈ r.words, v ≤ r.format.maxValue :=
  (Grid.forall_cells fun v => v ≤ r.format.maxValue).symm

/-- Whether all words are in range can be computed. -/
instance (r : Raster) : Decidable r.InRange := decidable_of_iff _ inRange_iff.symm

/-- Rasters that agree in format, resolution and size and in every word are the same. -/
theorem ext_word {r r' : Raster} (hformat : r.format = r'.format) (hresolution : r.resolution = r'.resolution)
    (hsize : r.size = r'.size) (hword : ∀ x y, r.size.Contains x y → r.word x y = r'.word x y) : r = r' := by
  obtain ⟨format, resolution, pixels⟩ := r
  obtain ⟨format', resolution', pixels'⟩ := r'
  obtain rfl : pixels = pixels' := Grid.ext_getD hsize 0 hword
  obtain rfl : format = format' := hformat
  obtain rfl : resolution = resolution' := hresolution
  rfl

/-- The format, the size and the resolution of a raster with every word in range. -/
structure HasShape (r : Raster) (f : PixelFormat) (s : Size) (p : Resolution) : Prop where
  format_eq : r.format = f
  size_eq : r.size = s
  resolution_eq : r.resolution = p
  inRange : r.InRange

/-- A raster with its words in range has its own shape. -/
theorem InRange.hasShape {r : Raster} (h : r.InRange) : r.HasShape r.format r.size r.resolution :=
  ⟨rfl, rfl, rfl, h⟩

section Shape

variable {r : Raster} {f : PixelFormat} {s : Size} {p : Resolution}

/-- No reading of a raster exceeds its format, inside or outside. -/
theorem HasShape.word_le (h : r.HasShape f s p) (x y : Nat) : r.word x y ≤ f.maxValue := by
  rw [word, Grid.getD]
  cases hv : r.pixels.get? x y with
  | none => exact Nat.zero_le _
  | some v => exact h.format_eq ▸ h.inRange x y v hv

/-- A raster drawn by a rule reads as the rule says inside, and zero outside. -/
theorem word_ofFn (f : PixelFormat) (p : Resolution) (s : Size) (w : Nat → Nat → Nat) (x y : Nat) :
    (ofFn f p s w).word x y = if s.Contains x y then w x y else 0 :=
  Grid.getD_ofFn s w x y 0

/-- A raster drawn by a rule has the shape it was drawn with. -/
theorem hasShape_ofFn (f : PixelFormat) (p : Resolution) (s : Size) {w : Nat → Nat → Nat}
    (hw : ∀ x y, w x y ≤ f.maxValue) : (ofFn f p s w).HasShape f s p := by
  refine ⟨rfl, rfl, rfl, fun x y v hv => ?_⟩
  rw [ofFn, Grid.get?_ofFn] at hv
  split at hv
  · rw [← Option.some.inj hv]
    exact hw x y
  · exact absurd hv (by simp)

/-- Words that read in range inside make a raster of their shape. -/
theorem hasShape_of_getD_le {pixels : Grid Nat} (hsize : pixels.size = s) (p : Resolution)
    (hle : ∀ x y, s.Contains x y → pixels.getD x y 0 ≤ f.maxValue) : HasShape ⟨f, p, pixels⟩ f s p := by
  refine ⟨rfl, hsize, rfl, fun x y v hv => ?_⟩
  have hxy : s.Contains x y := by
    by_contra hout
    rw [Grid.get?_eq_none.mpr (hsize ▸ hout)] at hv
    exact absurd hv.symm (Option.some_ne_none v)
  have hat := hle x y hxy
  rwa [Grid.getD, hv] at hat

/-- A map between the ranges of two formats keeps size and resolution. -/
theorem HasShape.mapWords (h : r.HasShape f s p) (f' : PixelFormat) {g : Nat → Nat}
    (hg : ∀ v, v ≤ f.maxValue → g v ≤ f'.maxValue) : (r.mapWords f' g).HasShape f' s p := by
  refine ⟨rfl, h.size_eq, h.resolution_eq, fun x y v hv => ?_⟩
  rw [Raster.mapWords, Grid.get?_map] at hv
  obtain ⟨w, hw, rfl⟩ := Option.map_eq_some_iff.mp hv
  exact hg w (h.format_eq ▸ h.inRange x y w hw)

/-- The gray view of a page has its shape in gray. -/
theorem HasShape.toGray (h : r.HasShape f s p) : r.toGray.HasShape .gray8 s p := by
  rw [Raster.toGray]
  split
  · next hf =>
    obtain rfl : f = .gray8 := h.format_eq.symm.trans hf
    exact h
  · exact h.mapWords .gray8 fun v _ => Nat.le_of_lt_succ (PixelFormat.grayOf_lt _ v)

/-- The base image of a page has its shape in the promoted format. -/
theorem HasShape.promote (h : r.HasShape f s p) : r.promote.HasShape f.promoted s p := by
  rw [Raster.promote, PixelFormat.promoted, h.format_eq]
  split
  · exact h.toGray
  · exact h

/-- Another resolution changes the shape in this point only. -/
theorem HasShape.withResolution (h : r.HasShape f s p) (p' : Resolution) :
    (r.withResolution p').HasShape f s p' :=
  ⟨h.format_eq, h.size_eq, rfl, h.inRange⟩

/-- The gray view is gray. -/
theorem format_toGray (r : Raster) : r.toGray.format = .gray8 := by
  rw [Raster.toGray]
  split
  · assumption
  · rfl

/-- The gray view has the size of the page. -/
theorem size_toGray (r : Raster) : r.toGray.size = r.size := by
  rw [Raster.toGray]
  split <;> rfl

/-- The gray view has the resolution of the page. -/
theorem resolution_toGray (r : Raster) : r.toGray.resolution = r.resolution := by
  rw [Raster.toGray]
  split <;> rfl

/-- A gray page is its own gray view. -/
theorem toGray_eq_self (h : r.format = .gray8) : r.toGray = r := if_pos h

end Shape

/-- A raster of the needed format is accepted. -/
theorem requireFormat_eq_ok {r : Raster} {f : PixelFormat} (h : r.format = f) : r.requireFormat f = .ok () :=
  if_pos h

/-- A raster of the expected sides is accepted. -/
theorem checkSides_eq_ok {r : Raster} {s : Size} (h : r.size = s) : r.checkSides s.sides = .ok () :=
  if_pos (congrArg Size.sides h)

/-- A raster accepted for the sides of a size has this size. -/
theorem size_eq_of_checkSides {r : Raster} {s : Size} {done : Unit} (h : r.checkSides s.sides = .ok done) :
    r.size = s := by
  rw [checkSides] at h
  split at h
  · next hsides => exact Size.eq_of_sides_eq hsides
  · exact absurd h nofun

/-- An inverted raster keeps the size. -/
theorem size_of_invert {r inverse : Raster} (h : r.invert = .ok inverse) : inverse.size = r.size := by
  rw [invert] at h
  split at h
  · exact absurd h nofun
  · rw [← Except.ok.inj h]
    rfl

/-- The black pixels of a bilevel page make a mask of its size. -/
theorem toMask_returns {r : Raster} (h : r.format = .bit1) : Returns r.toMask fun m => m.size = r.size := by
  rw [toMask, requireFormat_eq_ok h]
  exact returns_ok rfl

/-- The mask of a bilevel page has its size. -/
theorem size_of_toMask {r : Raster} {m : Mask} (h : r.toMask = .ok m) : m.size = r.size := by
  obtain ⟨_, _, hm⟩ := bind_eq_ok.mp h
  rw [← pure_eq_ok.mp hm]
  rfl

/-- The mask of a bilevel page selects the pixels whose word is not white. -/
theorem get_toMask {r : Raster} {m : Mask} (h : r.toMask = .ok m) (x y : Nat) :
    m.get x y = (r.word x y != 0) := by
  obtain ⟨_, _, hm⟩ := bind_eq_ok.mp h
  rw [← pure_eq_ok.mp hm, Mask.get, Grid.getD, Grid.get?_map, word, Grid.getD]
  cases r.pixels.get? x y <;> rfl

end Raster

/-- A value between four levels is a level. -/
theorem Resampling.between_lt (dx dy : Float) (a b c d : Nat) : Resampling.between dx dy a b c d < 256 :=
  UInt8.toNat_lt _

namespace Raster

variable {r : Raster} {f : PixelFormat} {s : Size} {p : Resolution}

/-- A word between four others is in the range of the format. -/
theorem wordBetween_le (hf : r.format ≠ .bit1) (x y : Nat) (stepX stepY : Float) :
    r.wordBetween x y stepX stepY ≤ r.format.maxValue := by
  simp only [wordBetween]
  cases hformat : r.format with
  | bit1 => exact absurd hformat hf
  | gray8 => exact Nat.le_of_lt_succ (Resampling.between_lt ..)
  | rgb32 => apply Color.compose_le <;> exact Resampling.between_lt ..

/-- Resampling to sides of at least one pixel gives a raster of these sides. -/
theorem scaleToSides_returns (h : r.HasShape f s p) (t : Size) (how : Resampling) :
    Returns (r.scaleToSides t.width t.height how) fun r' => ∃ p', r'.HasShape f t p' := by
  obtain rfl := h.format_eq
  rw [scaleToSides, Size.ofSides_sides]
  refine (returns_ok (Q := (· = t)) rfl).bind fun t' ht => ?_
  subst ht
  split
  · next heq => exact returns_pure ⟨p, heq ▸ h.size_eq ▸ h⟩
  · dsimp only
    split
    · exact returns_pure ⟨_, hasShape_ofFn _ _ _ fun x y => h.word_le _ _⟩
    · next hne =>
      refine returns_pure ⟨_, hasShape_ofFn _ _ _ fun x y => wordBetween_le ?_ x y _ _⟩
      exact fun hb => hne (Or.inl hb)

/-- A side at another resolution as a whole number without a bound. -/
def resampledSide (side source target : Nat) : Nat := max ((side * target + source / 2) / source) 1

/-- Sides that fit into 32 bits are not wrapped. -/
theorem scaledSide_eq {side source target : Nat} (h : resampledSide side source target < 2 ^ 32) :
    scaledSide side source target = resampledSide side source target :=
  Nat.mod_eq_of_lt h

end Raster

/-- The size of a page at another resolution. -/
def Size.resampled (s : Size) (source target : Resolution) : Size where
  width := Raster.resampledSide s.width source.horizontal target.horizontal
  height := Raster.resampledSide s.height source.vertical target.vertical
  width_pos := Nat.lt_of_lt_of_le Nat.zero_lt_one (Nat.le_max_right _ _)
  height_pos := Nat.lt_of_lt_of_le Nat.zero_lt_one (Nat.le_max_right _ _)

/-- Neither side exceeds the number of positions. -/
theorem Size.sides_le_area (s : Size) : s.width ≤ s.area ∧ s.height ≤ s.area :=
  ⟨Nat.le_mul_of_pos_right _ s.height_pos, Nat.le_mul_of_pos_left _ s.width_pos⟩

namespace Raster

variable {r : Raster} {f : PixelFormat} {s : Size} {p : Resolution}

/-- A page whose resolution has dots on both axes can be brought to any other such resolution. -/
theorem scaleToResolution_returns (h : r.HasShape f s p) {target : Resolution} (hp : p.valid = true)
    (ht : target.valid = true) (hne : p ≠ target) (harea : (s.resampled p target).area < 2 ^ 31) :
    Returns (r.scaleToResolution target) fun r' => r'.HasShape f (s.resampled p target) target := by
  obtain rfl := h.size_eq
  obtain ⟨hwidth, hheight⟩ := (r.size.resampled p target).sides_le_area
  have hlt : (r.size.resampled p target).area < 2 ^ 32 := Nat.lt_trans harea (by decide)
  have hw : scaledSide r.width p.horizontal target.horizontal = (r.size.resampled p target).width :=
    scaledSide_eq (Nat.lt_of_le_of_lt hwidth hlt)
  have hh : scaledSide r.height p.vertical target.vertical = (r.size.resampled p target).height :=
    scaledSide_eq (Nat.lt_of_le_of_lt hheight hlt)
  simp only [scaleToResolution, h.resolution_eq, hp, ht, hne, hw, hh]
  refine Returns.bind (scaleToSides_returns h _ _) fun r' hr' => ?_
  obtain ⟨p', hp'⟩ := hr'
  exact returns_pure (hp'.withResolution target)

/-- A resolution without dots on some axis is refused, be it that of the page or the target. -/
theorem scaleToResolution_eq_error {target : Resolution} (h : r.resolution.valid = false ∨ target.valid = false) :
    r.scaleToResolution target = .error (.zeroResolution r.resolution target) := by
  have hinvalid : (!r.resolution.valid || !target.valid) = true := by
    rcases h with h | h <;> simp [h]
  simp only [scaleToResolution]
  rw [if_pos hinvalid]
  rfl

end Raster

end ScannedPage
