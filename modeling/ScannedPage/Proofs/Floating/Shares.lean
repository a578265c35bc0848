import ScannedPage.Proofs.Floating.Nearest
import ScannedPage.Proofs.Floating.Signs

/-!
# Shares of a whole number

A share below one half of a whole number of pixels stays below one half of the number itself, although the number,
the share and their product are rounded. The product exceeds its exact value by a factor of 1 + 2⁻⁵³ at most, which
is less than the share falls short of one half, and the number is not rounded beyond twice the product if it is not
greater than that.
-/

namespace ScannedPage.Floating

open Float.Model (Format UnpackedFloat totalExponent)
open Float.Model.UnpackedFloat

section Rounding

variable {m : Nat} {e : Int}

/-- In the range of full mantissas the rounded value exceeds the exact one by a factor of 1 + 2⁻⁵³ at most. -/
theorem roundedValue_le_mul (hbits : 52 ≤ m.log2) (hlow : -1022 ≤ m.log2 + e) :
    roundedValue m e ≤ value m e * (1 + 2 ^ (-53 : Int)) := by
  have hlast : lastPlace m e = m.log2 + e - 52 := by
    rw [lastPlace]
    omega
  have hunit : (2 : ℚ) ^ (lastPlace m e - 1) ≤ value m e * 2 ^ (-53 : Int) := by
    calc (2 : ℚ) ^ (lastPlace m e - 1) = 2 ^ (m.log2 + e) * 2 ^ (-53 : Int) := by
          rw [← zpow_add₀ two_ne_zero, hlast]
          congr 1
          omega
      _ ≤ value m e * 2 ^ (-53 : Int) := by
          gcongr
          exact zpow_le_value (ne_zero_of_le_log2 hbits) e
  calc roundedValue m e ≤ value m e + 2 ^ (lastPlace m e - 1) := roundedValue_le (by omega)
    _ ≤ value m e + value m e * 2 ^ (-53 : Int) := by gcongr
    _ = value m e * (1 + 2 ^ (-53 : Int)) := by ring

/-- Below the range of full mantissas the rounded value is less than one half. -/
theorem two_mul_roundedValue_lt_one (hbits : 52 ≤ m.log2) (hlow : m.log2 + e < -1022) :
    2 * roundedValue m e < 1 := by
  have hlast : lastPlace m e = -1074 := by
    rw [lastPlace]
    omega
  have hexact : value m e < 2 ^ (-2 : Int) := by
    calc value m e < 2 ^ ((m.log2 + 1 : Nat) + e) := value_lt_zpow Nat.lt_log2_self e
      _ ≤ 2 ^ (-2 : Int) := zpow_le_zpow_right₀ one_le_two (by push_cast; omega)
  have hunit : (2 : ℚ) ^ (lastPlace m e - 1) ≤ 2 ^ (-2 : Int) := zpow_le_zpow_right₀ one_le_two (by omega)
  rw [show (2 : ℚ) ^ (-2 : Int) = 1 / 4 by norm_num] at hexact hunit
  have hrounded := roundedValue_le (m := m) (e := e) (by omega)
  linarith

end Rounding

section WholeParts

/-- The value by powers with natural exponents. -/
theorem value_eq_div (m : Nat) (e : Int) : value m e = (m * 2 ^ e.toNat : Nat) / (2 ^ (-e).toNat : Nat) := by
  have hsplit : e = (e.toNat : Int) - ((-e).toNat : Int) := by omega
  conv_lhs => rw [hsplit]
  rw [value, zpow_sub₀ two_ne_zero, zpow_natCast, zpow_natCast]
  push_cast
  ring

/-- A word that a positive number is converted to does not exceed its value. -/
theorem toNat_toUInt64_le_value {a : Float} {m : Nat} {e : Int} {hm : 0 < m}
    (h : a.toModel.unpack = .finite .positive m e hm) :
    (a.toUInt64.toNat : ℚ) ≤ value m e := by
  have hpart : roundToInt .positive m e = (m * 2 ^ e.toNat / 2 ^ (-e).toNat : Nat) := by
    have hshift : (0 - (e - (e.toNat : Int))).toNat = (-e).toNat := by omega
    simp only [roundToInt, decreaseExponent, shiftToExponent, Sign.apply, mantissa_shiftRight,
      mantissa_ofMantissaAndAccuracy, Nat.shiftLeft_eq, Int.sub_zero, hshift]
  have hword : a.toUInt64.toNat ≤ m * 2 ^ e.toNat / 2 ^ (-e).toNat := by
    change (UInt64.ofNatClamp (a.toModel.unpack.toInt 0 (UInt64.size - 1)).toNat).toNat ≤ _
    rw [h]
    change (UInt64.ofNatClamp (roundToInt .positive m e).toNat).toNat ≤ _
    rw [hpart, Int.toNat_natCast, UInt64.ofNatClamp]
    split
    · exact le_refl _
    · next hlarge => exact Nat.le_of_lt (Nat.lt_of_lt_of_le (UInt64.toNat_lt _) (Nat.le_of_not_lt hlarge))
  calc (a.toUInt64.toNat : ℚ) ≤ (m * 2 ^ e.toNat / 2 ^ (-e).toNat : Nat) := by exact_mod_cast hword
    _ ≤ (m * 2 ^ e.toNat : Nat) / (2 ^ (-e).toNat : Nat) := Nat.cast_div_le
    _ = value m e := (value_eq_div m e).symm

end WholeParts

section Shares

/-- A whole number of up to 65 places is rounded to 53, and not beyond any number of 53 places from it on. -/
theorem unpack_ofNat_nearest {n : Nat} (hn : n ≠ 0) (hlt : n < 2 ^ 65) : ∃ m e hm,
    (Float.ofNat n).toModel.unpack = .finite .positive m e hm ∧ m.log2 = 52 ∧ e ≤ 13 ∧
      ∀ {a : Nat} {b : Int}, a < 2 ^ 53 → (n : ℚ) ≤ value a b → value m e ≤ value a b := by
  have hplaces : n.log2 < 65 := (Nat.log2_lt hn).mpr hlt
  by_cases hsmall : n < 2 ^ 53
  · obtain ⟨hm, hunpack⟩ := unpack_ofNat hn hsmall
    have hlog := log2_mul_two_pow hn (52 - n.log2)
    have hplaces' : n.log2 < 53 := (Nat.log2_lt hn).mpr hsmall
    refine ⟨_, _, hm, hunpack, by omega, by omega, fun {a b} _ h => ?_⟩
    have hexponent : (n.log2 : Int) - 52 + (52 - n.log2 : Nat) = 0 := by omega
    rwa [value_mul_two_pow, hexponent, value, zpow_zero, mul_one]
  · obtain ⟨m, e, hm, hround, hunpack, hfull, hhigh⟩ := unpack_ofNat_of_ge (Nat.le_of_not_lt hsmall) hlt
    have hlog := log2_mul_two_pow hn 53
    have hbits : 52 ≤ (n * 2 ^ 53).log2 := by omega
    have hexact : value (n * 2 ^ 53) (-53) = n := by
      rw [value_mul_two_pow, value]
      simp
    have hvalue : value m e = roundedValue (n * 2 ^ 53) (-53) := by
      rcases roundWithAccuracy_value (e := -53) .positive hbits with hzero | ⟨m', e', hm', hround', -, hvalue⟩
      · rw [hround] at hzero
        cases hzero
      · rw [hround] at hround'
        cases hround'
        exact hvalue
    refine ⟨m, e, hm, hunpack, hfull, by omega, fun {a b} ha h => ?_⟩
    rw [hvalue]
    exact roundedValue_le_of_le hbits (by omega) ha (hexact.trans_le h)

/-- A number from zero on that is less than one half is a zero or falls short of one half by a factor of 1 - 2⁻⁵³
at least. -/
theorem unpack_share {share : Float} (hzero : Float.ofNat 0 ≤ share)
    (hhalf : share < Float.ofNat 1 / Float.ofNat 2) :
    (∃ sign, share.toModel.unpack = .zero sign) ∨ ∃ m e hm, share.toModel.unpack = .finite .positive m e hm ∧
      m < 2 ^ 53 ∧ e ≤ -54 := by
  have htop : (Float.ofNat 1 / Float.ofNat 2).toModel.unpack = .finite .positive (2 ^ 52) (-53) (by decide) := rfl
  rw [zero_le_iff] at hzero
  rw [lt_iff, htop] at hhalf
  cases hu : share.toModel.unpack with
  | notANumber =>
    rw [hu] at hzero
    exact hzero.elim
  | zero sign => exact .inl ⟨sign, rfl⟩
  | infinity sign =>
    rw [hu] at hzero hhalf
    cases sign with
    | negative => exact hzero.elim
    | positive => exact absurd hhalf (by decide)
  | finite sign m e hm =>
    have hplaces := unpack_finite hu
    have hlog := Nat.log2_eq_iff (k := 52) (Nat.ne_of_gt hm)
    rw [hu] at hzero hhalf
    cases sign with
    | negative => exact hzero.elim
    | positive =>
      refine .inr ⟨m, e, hm, rfl, by omega, ?_⟩
      have horder : e < -53 ∨ e = -53 ∧ m < 2 ^ 52 := by
        have hcompare := beq_iff_eq.mp hhalf
        simpa only [UnpackedFloat.compare, Option.some.injEq, Ordering.then_eq_lt, Nat.compare_eq_lt,
          Int.compare_eq_lt, Int.compare_eq_eq] using hcompare
      omega

/-- Twice the rounded product of a number and a share below one half is less than the number, or than one. -/
theorem two_mul_roundedValue_lt {m₁ m₂ : Nat} {e₁ e₂ : Int} (h₁ : m₁.log2 = 52) (h₂ : m₂ ≠ 0) (hlt : m₂ < 2 ^ 53)
    (hlow : e₂ ≤ -54) : 2 * roundedValue (m₁ * m₂) (e₁ + e₂) < max (value m₁ e₁) 1 := by
  have hbits : 52 ≤ (m₁ * m₂).log2 :=
    h₁.symm.trans_le (log2_le_log2 (Nat.le_mul_of_pos_right _ (Nat.pos_of_ne_zero h₂)))
  rcases lt_or_ge ((m₁ * m₂).log2 + (e₁ + e₂)) (-1022) with hsmall | hlarge
  · exact lt_max_of_lt_right (two_mul_roundedValue_lt_one hbits hsmall)
  · refine lt_max_of_lt_left ?_
    have hshare : 2 * value m₂ e₂ ≤ 1 - 2 ^ (-53 : Int) := by
      calc 2 * value m₂ e₂ ≤ 2 * value (2 ^ 53 - 1) e₂ := by
            gcongr
            exact value_le_value.mpr (by omega)
        _ ≤ 2 * value (2 ^ 53 - 1) (-54) := by
            rw [value, value]
            gcongr
            exact one_le_two
        _ = 1 - 2 ^ (-53 : Int) := by norm_num [value]
    have hpos : 0 < value m₁ e₁ := by
      rw [value]
      have : 0 < m₁ := Nat.pos_of_ne_zero (ne_zero_of_log2_eq h₁)
      positivity
    calc 2 * roundedValue (m₁ * m₂) (e₁ + e₂) ≤ 2 * (value (m₁ * m₂) (e₁ + e₂) * (1 + 2 ^ (-53 : Int))) := by
          gcongr
          exact roundedValue_le_mul hbits hlarge
      _ = value m₁ e₁ * (2 * value m₂ e₂ * (1 + 2 ^ (-53 : Int))) := by
          rw [value_mul]
          ring
      _ ≤ value m₁ e₁ * ((1 - 2 ^ (-53 : Int)) * (1 + 2 ^ (-53 : Int))) := by gcongr
      _ < value m₁ e₁ * 1 := by
          gcongr
          norm_num
      _ = value m₁ e₁ := mul_one _

/-- A zero of either sign is converted to the word zero. -/
theorem toNat_toUInt64_zero {a : Float} {sign : Sign}
    (h : a.toModel.unpack = unpack Format.binary64 (pack Format.binary64 (.zero sign))) :
    a.toUInt64.toNat = 0 := by
  refine Nat.le_zero.mp (toNat_toUInt64_le (by decide) ?_)
  rw [h]
  cases sign <;> exact Nat.le_refl 0

/-- The whole part of a product with a share is bounded by a number of 53 places below one half of the other
factor, or of one. -/
theorem toNat_mul_le {a share : Float} {m₁ : Nat} {e₁ : Int} {h₁ : 0 < m₁}
    (ha : a.toModel.unpack = .finite .positive m₁ e₁ h₁)
    (hfull : m₁.log2 = 52) (hhigh : e₁ ≤ 13) (hzero : Float.ofNat 0 ≤ share)
    (hhalf : share < Float.ofNat 1 / Float.ofNat 2) :
    ∃ m e, m < 2 ^ 53 ∧ ((a * share).toUInt64.toNat : ℚ) ≤ value m e ∧ 2 * value m e < max (value m₁ e₁) 1 := by
  have hproduct : (a * share).toModel.unpack = unpack Format.binary64 (pack Format.binary64
      (UnpackedFloat.mul Format.binary64 (.finite .positive m₁ e₁ h₁) share.toModel.unpack)) := by
    rw [← ha]
    rfl
  have hnone (h : (a * share).toUInt64.toNat = 0) :
      ∃ m e, m < 2 ^ 53 ∧ ((a * share).toUInt64.toNat : ℚ) ≤ value m e ∧ 2 * value m e < max (value m₁ e₁) 1 := by
    refine ⟨0, 0, by decide, ?_, lt_max_of_lt_right ?_⟩
    · rw [h, value, Nat.cast_zero, zero_mul]
    · rw [value, Nat.cast_zero, zero_mul, mul_zero]
      exact one_pos
  rcases unpack_share hzero hhalf with ⟨sign, hshare⟩ | ⟨m₂, e₂, h₂, hshare, hplaces, hlow⟩
  · rw [hshare] at hproduct
    exact hnone (toNat_toUInt64_zero hproduct)
  · rw [hshare] at hproduct
    change _ = unpack _ (pack _
      (roundWithAccuracy Format.binary64 .positive (m₁ * m₂) (e₁ + e₂) .exact)) at hproduct
    have hbits : 52 ≤ (m₁ * m₂).log2 := hfull.symm.trans_le (log2_le_log2 (Nat.le_mul_of_pos_right _ h₂))
    have hbound : 2 * roundedValue (m₁ * m₂) (e₁ + e₂) < max (value m₁ e₁) 1 :=
      two_mul_roundedValue_lt hfull (Nat.ne_of_gt h₂) hplaces hlow
    rcases roundWithAccuracy_value .positive hbits with hround | ⟨m, e, hm, hround, hcanonical, hvalue⟩
    · rw [hround] at hproduct
      exact hnone (toNat_toUInt64_zero hproduct)
    · rw [← hvalue] at hbound
      have hexponent : e < 66 := by
        have hfactor : value m₁ e₁ < 2 ^ ((53 : Nat) + e₁) := value_lt_zpow (lt_of_log2_eq hfull) e₁
        have hmax : max (value m₁ e₁) 1 ≤ 2 ^ (66 : Int) :=
          max_le (hfactor.le.trans (zpow_le_zpow_right₀ one_le_two (by omega)))
            (one_le_zpow₀ one_le_two (by decide))
        refine exponent_lt_of_value_lt (Nat.ne_of_gt hm) ?_
        linarith [value_nonneg m e]
      rw [hround, hcanonical.unpack_pack (by omega)] at hproduct
      exact ⟨m, e, hcanonical.lt, toNat_toUInt64_le_value hproduct, hbound⟩

/-- A share below one half of a whole number stays below one half of it when the product is rounded and its
fraction dropped. -/
theorem two_mul_toNat_mul_lt {n : Nat} (hn : n ≠ 0) {share : Float} (hzero : Float.ofNat 0 ≤ share)
    (hhalf : share < Float.ofNat 1 / Float.ofNat 2) : 2 * (Float.ofNat n * share).toUInt64.toNat < n := by
  by_cases hlt : n < 2 ^ 65
  · obtain ⟨m₁, e₁, h₁, hunpack, hfull, hhigh, hnearest⟩ := unpack_ofNat_nearest hn hlt
    obtain ⟨m, e, hm, hpart, hbound⟩ := toNat_mul_le hunpack hfull hhigh hzero hhalf
    have hdouble : 2 * value m e = value m (e + 1) := by
      rw [value, value, zpow_add_one₀ two_ne_zero]
      ring
    have hone : (1 : ℚ) ≤ n := Nat.one_le_cast.mpr (Nat.pos_of_ne_zero hn)
    -- twice the bound has 53 places, so the number would be rounded to it at most if it were not greater
    have hless : 2 * value m e < n := by
      by_contra hnot
      rw [not_lt] at hnot
      have hrounded : value m₁ e₁ ≤ 2 * value m e := by
        rw [hdouble] at hnot ⊢
        exact hnearest hm hnot
      exact absurd hbound (not_lt.mpr (max_le hrounded (hone.trans hnot)))
    have htwice : (2 * (Float.ofNat n * share).toUInt64.toNat : ℚ) < n := by linarith
    exact_mod_cast htwice
  · have hword := (Float.ofNat n * share).toUInt64.toNat_lt
    omega

end Shares

end ScannedPage.Floating
