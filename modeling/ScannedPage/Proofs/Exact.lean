import Mathlib.Algebra.Order.Field.Rat
import Mathlib.Algebra.Order.Floor.Ring
import Mathlib.Data.Nat.Sqrt
import Mathlib.Data.Rat.Floor
import Mathlib.Tactic.Linarith
import Mathlib.Tactic.NormNum
import ScannedPage.Scalar

/-!
# Exact arithmetic

The numeric rules can be evaluated on rational numbers, where nothing is rounded and every number is finite. Sums,
products, quotients, comparisons and whole parts are those of the field. Square roots and exponentials lead out of
it and are taken from elsewhere, so what is stated of a rule holds for every choice of them.
-/

namespace ScannedPage

/-- The functions that exact arithmetic takes from elsewhere. -/
class Transcendentals where
  sqrt : ℚ → ℚ
  exp : ℚ → ℚ

/-- Square roots that are exact at the squares of rational numbers; the exponential is that of zero. -/
@[reducible]
def Transcendentals.ofSquares : Transcendentals where
  sqrt a := mkRat (Nat.sqrt a.num.toNat) (Nat.sqrt a.den)
  exp _ := 1

/-- Exact arithmetic. -/
instance instScalarRat [Transcendentals] : Scalar ℚ where
  abs a := |a|
  sqrt := Transcendentals.sqrt
  exp := Transcendentals.exp
  round a := if a < 0 then ⌈a - 1 / 2⌉ else ⌊a + 1 / 2⌋
  floorNat a := ⌊a⌋.toNat
  ceilInt a := ⌈a⌉
  isFinite _ := true

namespace Scalar

variable [Transcendentals]

/-- Every exact number is a number. -/
theorem isNumber_rat (a : ℚ) : isNumber a = true := decide_eq_true (le_refl a)

/-- The lesser of two exact numbers is their minimum. -/
theorem least_rat (a b : ℚ) : least a b = min a b := by
  rw [least, isNumber_rat, min_comm]
  exact (min_def_lt b a).symm

/-- The greater of two exact numbers is their maximum. -/
theorem greatest_rat (a b : ℚ) : greatest a b = max a b := by
  rw [greatest, isNumber_rat]
  exact (max_def_lt a b).symm

/-- A whole number is its own nearest whole number. -/
theorem round_natCast (n : Nat) : round (n : ℚ) = n := by
  have hnonneg : ¬ (n : ℚ) < 0 := not_lt.mpr n.cast_nonneg
  have hfloor : ⌊(n : ℚ) + 1 / 2⌋ = (n : ℤ) := Int.floor_eq_iff.mpr ⟨by simp, by norm_num⟩
  calc round (n : ℚ) = ((⌊(n : ℚ) + 1 / 2⌋ : ℤ) : ℚ) := if_neg hnonneg
    _ = n := by rw [hfloor, Int.cast_natCast]

/-- Rounding to the nearest whole number keeps the order. -/
theorem round_mono {a b : ℚ} (h : a ≤ b) : round a ≤ round b := by
  change (if a < 0 then ((⌈a - 1 / 2⌉ : ℤ) : ℚ) else (⌊a + 1 / 2⌋ : ℤ)) ≤
    if b < 0 then ((⌈b - 1 / 2⌉ : ℤ) : ℚ) else (⌊b + 1 / 2⌋ : ℤ)
  split_ifs with ha hb hb
  · exact Int.cast_le.mpr (Int.ceil_mono (by linarith))
  · have hdown : ⌈a - 1 / 2⌉ ≤ 0 := Int.ceil_le.mpr (by push_cast; linarith)
    have hup : 0 ≤ ⌊b + 1 / 2⌋ := Int.floor_nonneg.mpr (by linarith)
    exact Int.cast_le.mpr (hdown.trans hup)
  · exact absurd (h.trans_lt hb) ha
  · exact Int.cast_le.mpr (Int.floor_mono (by linarith))

/-- Moving values into an interval keeps their order. -/
theorem clamp_mono {a b low high : ℚ} (hle : low ≤ high) (h : a ≤ b) : clamp a low high ≤ clamp b low high := by
  rw [clamp, clamp]
  split_ifs <;> linarith

/-- Greater values stand for greater levels. -/
theorem toLevel_mono {a b : ℚ} (h : a ≤ b) : toLevel a ≤ toLevel b :=
  Int.toNat_le_toNat (Int.floor_mono (clamp_mono (Nat.cast_le.mpr (Nat.zero_le 255)) h))

/-- A whole number stands for itself, or for white beyond the levels. -/
theorem toLevel_natCast (n : Nat) : toLevel (n : ℚ) = min n 255 := by
  have hnonneg : ¬ (n : ℚ) < ((0 : Nat) : ℚ) := Nat.cast_lt.not.mpr (Nat.not_lt_zero n)
  have hclamp : clamp (n : ℚ) ((0 : Nat) : ℚ) ((255 : Nat) : ℚ) = (min n 255 : Nat) := by
    rw [clamp, if_neg hnonneg]
    split
    · next hhigh => rw [min_eq_right (Nat.cast_lt.mp hhigh).le]
    · next hlow => rw [min_eq_left (Nat.cast_le.mp (not_lt.mp hlow))]
  calc toLevel (n : ℚ) = ⌊((min n 255 : Nat) : ℚ)⌋.toNat := by rw [← hclamp]; rfl
    _ = min n 255 := by rw [Int.floor_natCast, Int.toNat_natCast]

end Scalar

end ScannedPage
