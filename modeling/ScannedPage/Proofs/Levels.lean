import Mathlib.Tactic.NormNum
import ScannedPage.Proofs.Exact
import ScannedPage.Proofs.Floating.Signs

/-!
# Levels and their distances

Whatever arithmetic the numeric rules are evaluated in, a value stands for a level of a byte, and the distances of
levels are summed up without their signs being lost (`Scalar.LawfulLevels`). That holds of exact numbers and of
floating point, where neither a rounded sum of distances nor its mean over the pixels of a page becomes zero or
negative unless every distance was zero.
-/

namespace ScannedPage

namespace Scalar

/-- Arithmetic in which values stand for levels of a byte, and in which distances of levels, their sums and their
means over less than `2 ^ 64` pixels have the sign of the exact ones. -/
class LawfulLevels (K : Type) [Scalar K] [DecidableLT K] : Prop where
  toLevel_le (a : K) : toLevel a ≤ 255
  zero_le_zero : ((0 : Nat) : K) ≤ ((0 : Nat) : K)
  sub_nonneg {low high : Nat} : low ≤ high → high ≤ 255 → ((0 : Nat) : K) ≤ (high : K) - (low : K)
  one_le_sub {low high : Nat} : low < high → high ≤ 255 → ((1 : Nat) : K) ≤ (high : K) - (low : K)
  add_nonneg {a b : K} : ((0 : Nat) : K) ≤ a → ((0 : Nat) : K) ≤ b → ((0 : Nat) : K) ≤ a + b
  one_le_add_left {a b : K} : ((1 : Nat) : K) ≤ a → ((0 : Nat) : K) ≤ b → ((1 : Nat) : K) ≤ a + b
  one_le_add_right {a b : K} : ((0 : Nat) : K) ≤ a → ((1 : Nat) : K) ≤ b → ((1 : Nat) : K) ≤ a + b
  div_pos {a : K} {n : Nat} : ((1 : Nat) : K) ≤ a → n ≠ 0 → n < 2 ^ 64 → ¬ a / (n : K) ≤ ((0 : Nat) : K)

/-- Exact numbers have lawful levels. -/
instance [Transcendentals] : LawfulLevels ℚ where
  toLevel_le a := by
    have hclamp : clamp a ((0 : Nat) : ℚ) ((255 : Nat) : ℚ) ≤ ((255 : Int) : ℚ) := by
      rw [clamp]
      split_ifs with hlow hhigh
      · norm_num
      · norm_num
      · exact not_lt.mp hhigh
    have hfloor := Int.floor_le_iff.mpr (lt_of_le_of_lt hclamp (lt_add_one _))
    exact Int.toNat_le.mpr hfloor
  zero_le_zero := le_refl _
  sub_nonneg hle _ := by
    rw [Nat.cast_zero]
    exact sub_nonneg_of_le (Nat.cast_le.mpr hle)
  one_le_sub {low high} hlt _ := by
    have hsucc : ((low + 1 : Nat) : ℚ) ≤ high := Nat.cast_le.mpr hlt
    rw [Nat.cast_add] at hsucc
    exact le_sub_iff_add_le'.mpr hsucc
  add_nonneg ha hb := by
    rw [Nat.cast_zero] at ha hb ⊢
    exact add_nonneg ha hb
  one_le_add_left ha hb := by
    rw [Nat.cast_zero] at hb
    exact ha.trans (le_add_of_nonneg_right hb)
  one_le_add_right ha hb := by
    rw [Nat.cast_zero] at ha
    exact hb.trans (le_add_of_nonneg_left ha)
  div_pos ha hn _ := by
    rw [Nat.cast_one] at ha
    rw [Nat.cast_zero, not_le]
    exact div_pos (one_pos.trans_le ha) (Nat.cast_pos.mpr (Nat.pos_of_ne_zero hn))

/-- Floating point has lawful levels. -/
instance : LawfulLevels Float where
  toLevel_le a := by
    change (clamp a (Float.ofNat 0) (Float.ofNat 255)).toUInt64.toNat ≤ 255
    rw [clamp]
    split_ifs with hlow hhigh
    · decide +kernel
    · decide +kernel
    · exact Floating.toNat_toUInt64_le_of_not_lt hhigh
  zero_le_zero := Floating.zero_le_iff.mpr trivial
  sub_nonneg hle hbyte := Floating.sub_ofNat_nonneg hle (by omega)
  one_le_sub hlt hbyte := Floating.one_le_sub_ofNat hlt (by omega)
  add_nonneg := Floating.add_nonneg
  one_le_add_left := Floating.one_le_add
  one_le_add_right ha hb := by
    have hzero := Floating.zero_le_iff.mpr (Floating.one_le_iff.mp hb).nonneg
    rw [Floating.add_comm_of_nonneg ha hzero]
    exact Floating.one_le_add hb ha
  div_pos := Floating.div_ofNat_pos

end Scalar

end ScannedPage
