import Mathlib.Algebra.Order.Field.Rat
import Mathlib.Algebra.Order.Round
import Mathlib.Data.Rat.Floor
import Mathlib.Tactic.Linarith
import Mathlib.Tactic.NormNum
import ScannedPage.Proofs.Raster

/-!
# Resampling and the physical size

A page that is brought to another resolution keeps its physical size as well as whole pixels allow: each side
becomes the whole number nearest to its length at the new resolution (`resampledSide_eq_nearestSide`). Sides are
words of 32 bits. A longer side is not refused but loses its high bits, so that the page comes out with the
remainder, or is refused for a remainder of zero (`scaleToResolution_keeps_lengths`).
-/

namespace ScannedPage

namespace Raster

/-- The whole number of pixels nearest to the length of a side at another resolution; halves go up, and there is at
least one pixel. -/
def nearestSide (side source target : Nat) : Nat := max (round ((side : ℚ) * target / source)).toNat 1

/-- The side is rounded to the nearest whole number without leaving the natural numbers. -/
theorem resampledSide_eq_nearestSide {source : Nat} (h : 0 < source) (side target : Nat) :
    resampledSide side source target = nearestSide side source target := by
  have hpos : (0 : ℚ) < source := Nat.cast_pos.mpr h
  have hround : round ((side : ℚ) * target / source) = ((side * target + source / 2) / source : Nat) := by
    generalize hside : (side * target + source / 2) / source = rounded
    obtain ⟨hlow, hhigh⟩ := (Nat.div_eq_iff h).mp hside
    have hlow' : 2 * (rounded * source) ≤ 2 * (side * target) + source := by omega
    have hhigh' : 2 * (side * target) + source < 2 * (rounded * source) + 2 * source := by omega
    rw [round_eq, Int.floor_eq_iff, Int.cast_natCast, div_add' _ _ _ hpos.ne', le_div_iff₀ hpos, div_lt_iff₀ hpos]
    have hlow'' : (2 * (rounded * source) : ℚ) ≤ 2 * (side * target) + source := by exact_mod_cast hlow'
    have hhigh'' : (2 * (side * target) + source : ℚ) < 2 * (rounded * source) + 2 * source := by
      exact_mod_cast hhigh'
    constructor <;> linarith
  rw [resampledSide, nearestSide, hround, Int.toNat_natCast]

/-- A side keeps its pixels at its own resolution. -/
theorem nearestSide_self {source side : Nat} (hsource : 0 < source) (hside : 0 < side) :
    nearestSide side source source = side := by
  rw [← resampledSide_eq_nearestSide hsource, resampledSide, Nat.mul_comm, Nat.mul_add_div hsource,
    Nat.div_eq_of_lt (Nat.div_lt_self hsource Nat.one_lt_two), Nat.add_zero, Nat.max_eq_left hside]

/-- A side has at least one pixel at any resolution. -/
theorem nearestSide_pos (side source target : Nat) : 0 < nearestSide side source target :=
  Nat.lt_of_lt_of_le Nat.zero_lt_one (Nat.le_max_right ..)

/-- A page resampled to a resolution and to given sides, with one word for every pixel. -/
structure Resampled (r : Raster) (target : Resolution) (width height : Nat) (page : Raster) : Prop where
  format_eq : page.format = r.format
  resolution_eq : page.resolution = target
  width_eq : page.width = width
  height_eq : page.height = height
  size_words : page.words.size = width * height

section Sides

variable {r : Raster} {target : Resolution}

/-- Resampling to sides of at least one pixel gives a page of these sides, whatever its words. -/
theorem scaleToSides_sized (r : Raster) (s : Size) (how : Resampling) :
    Returns (r.scaleToSides s.width s.height how) fun page => page.format = r.format ∧ page.size = s := by
  rw [scaleToSides, Size.ofSides_sides]
  refine (returns_ok (Q := (· = s)) rfl).bind fun s' hs' => ?_
  subst hs'
  split
  · next heq => exact returns_pure ⟨rfl, heq.symm⟩
  · dsimp only
    split
    · exact returns_pure ⟨rfl, rfl⟩
    · exact returns_pure ⟨rfl, rfl⟩

/-- A side without pixels is refused. -/
theorem scaleToSides_eq_error {width height : Nat} (h : width = 0 ∨ height = 0) (how : Resampling) :
    r.scaleToSides width height how = .error (.invalidDimension width height) := by
  rw [scaleToSides, Size.ofSides, dif_neg (by omega)]
  rfl

/-- A page stays as it is at its own resolution. -/
theorem scaleToResolution_self (h : r.resolution.valid = true) : r.scaleToResolution r.resolution = .ok r := by
  simp only [scaleToResolution, h]
  rfl

/-- At its own resolution the sides of a page are the nearest ones. -/
theorem resampled_self (h : r.resolution.valid = true) : r.Resampled r.resolution
    (nearestSide r.width r.resolution.horizontal r.resolution.horizontal)
    (nearestSide r.height r.resolution.vertical r.resolution.vertical) r := by
  obtain ⟨hhorizontal, hvertical⟩ := of_decide_eq_true h
  have hwidth : nearestSide r.width _ _ = r.width := nearestSide_self hhorizontal r.size.width_pos
  have hheight : nearestSide r.height _ _ = r.height := nearestSide_self hvertical r.size.height_pos
  rw [hwidth, hheight]
  exact ⟨rfl, rfl, rfl, rfl, r.pixels.size_cells⟩

/-- Between different resolutions with dots on all axes, a page is resampled to sides of 32 bits. -/
theorem scaleToResolution_eq (hsource : r.resolution.valid = true) (htarget : target.valid = true)
    (hne : r.resolution ≠ target) : r.scaleToResolution target = do
      let page ← r.scaleToSides (nearestSide r.width r.resolution.horizontal target.horizontal % 2 ^ 32)
        (nearestSide r.height r.resolution.vertical target.vertical % 2 ^ 32) .bilinear
      return page.withResolution target := by
  obtain ⟨hhorizontal, hvertical⟩ := of_decide_eq_true hsource
  rw [← resampledSide_eq_nearestSide hhorizontal, ← resampledSide_eq_nearestSide hvertical]
  simp only [scaleToResolution, hsource, htarget, if_neg hne]
  rfl

/-- Between different resolutions with dots on all axes, a page comes out with the remainders of the nearest sides,
if there is any pixel left. -/
theorem scaleToResolution_remainders (hsource : r.resolution.valid = true) (htarget : target.valid = true)
    (hne : r.resolution ≠ target) {width height : Nat} (hwidth : 0 < width) (hheight : 0 < height)
    (hw : nearestSide r.width r.resolution.horizontal target.horizontal % 2 ^ 32 = width)
    (hh : nearestSide r.height r.resolution.vertical target.vertical % 2 ^ 32 = height) :
    Returns (r.scaleToResolution target) (Resampled r target width height) := by
  rw [scaleToResolution_eq hsource htarget hne, hw, hh]
  refine (scaleToSides_sized r ⟨width, height, hwidth, hheight⟩ .bilinear).bind fun page hpage => ?_
  obtain ⟨hformat, hsize⟩ := hpage
  refine returns_pure ⟨hformat, rfl, congrArg Size.width hsize, congrArg Size.height hsize, ?_⟩
  exact page.pixels.size_cells.trans (congrArg Size.area hsize)

end Sides

/-- Resampling keeps the physical size of a page as far as sides fit into 32 bits. A page is refused if some axis
of its resolution or of the target has no dots, and stays as it is at its own resolution. At any other resolution
it comes out with this resolution and the nearest whole sides, and with one word for every pixel, if both of these
sides fit. If one does not fit, nothing says so: the page comes out with the remainders of the sides modulo 2³², or
is refused for a remainder without pixels. -/
theorem scaleToResolution_keeps_lengths (r : Raster) (target : Resolution) :
    let source := r.resolution
    let width := nearestSide r.width source.horizontal target.horizontal
    let height := nearestSide r.height source.vertical target.vertical
    (source.valid = false ∨ target.valid = false →
      r.scaleToResolution target = .error (.zeroResolution source target)) ∧
    (source.valid = true → target.valid = true →
      (source = target → r.scaleToResolution target = .ok r) ∧
      (width < 2 ^ 32 → height < 2 ^ 32 → Returns (r.scaleToResolution target) (Resampled r target width height)) ∧
      (source ≠ target → if width % 2 ^ 32 = 0 ∨ height % 2 ^ 32 = 0
        then r.scaleToResolution target = .error (.invalidDimension (width % 2 ^ 32) (height % 2 ^ 32))
        else Returns (r.scaleToResolution target) (Resampled r target (width % 2 ^ 32) (height % 2 ^ 32)))) := by
  intro source width height
  refine ⟨scaleToResolution_eq_error, fun hsource htarget => ⟨fun heq => ?_, fun hw hh => ?_, fun hne => ?_⟩⟩
  · exact heq ▸ scaleToResolution_self hsource
  · by_cases heq : source = target
    · subst heq
      exact ⟨r, scaleToResolution_self hsource, resampled_self hsource⟩
    · exact scaleToResolution_remainders hsource htarget heq (nearestSide_pos ..) (nearestSide_pos ..)
        (Nat.mod_eq_of_lt hw) (Nat.mod_eq_of_lt hh)
  · split
    · next hzero =>
      rw [scaleToResolution_eq hsource htarget hne, scaleToSides_eq_error hzero]
      rfl
    · next hpos =>
      rw [not_or] at hpos
      exact scaleToResolution_remainders hsource htarget hne (Nat.pos_of_ne_zero hpos.1)
        (Nat.pos_of_ne_zero hpos.2) rfl rfl

/-- A row of two pixels at one dot per inch would be 2³² + 4 pixels long at 2³¹ + 2 dots per inch, and comes out
with four. -/
theorem scaleToResolution_keeps_lengths_two_pixels :
    let row := ofFn .gray8 ⟨1, 1⟩ ⟨2, 1, by decide, by decide⟩ fun x _ => 10 * (x + 1)
    let target : Resolution := ⟨2 ^ 31 + 2, 1⟩
    nearestSide row.width row.resolution.horizontal target.horizontal = 2 ^ 32 + 4 ∧
      ∃ page, row.scaleToResolution target = .ok page ∧ page.resolution = target ∧
        page.width = 4 ∧ page.height = 1 := by
  intro row target
  have hwidth : nearestSide row.width row.resolution.horizontal target.horizontal = 2 ^ 32 + 4 := by
    rw [← resampledSide_eq_nearestSide (by decide)]
    decide
  have hheight : nearestSide row.height row.resolution.vertical target.vertical = 1 := by
    rw [← resampledSide_eq_nearestSide (by decide)]
    decide
  obtain ⟨-, hvalid⟩ := scaleToResolution_keeps_lengths row target
  have hbeyond := (hvalid (by decide) (by decide)).2.2 (by decide)
  rw [hwidth, hheight, if_neg (by decide)] at hbeyond
  obtain ⟨page, hpage, hresampled⟩ := hbeyond
  exact ⟨hwidth, page, hpage, hresampled.resolution_eq, hresampled.width_eq, hresampled.height_eq⟩

end Raster

end ScannedPage
