import ScannedPage.Proofs.Floating.Rounding

/-!
# Rounding to the nearest number

A mantissa that loses places is rounded to its quotient, or to the successor of the quotient if at least half of a
unit is lost (`roundedShift_cases`). So the rounded number exceeds the exact one by half a unit in its last place
at most, and it does not exceed any number of 53 places that the exact one does not exceed. Both are said of the
exact values of mantissas and exponents, and hold down to the least exponent, where a result may have fewer places.
-/

namespace ScannedPage.Floating

open Float.Model (Format UnpackedFloat totalExponent)
open Float.Model.UnpackedFloat

section Mantissas

/-- A mantissa rounded where it is shifted to the right. -/
def roundedShift (m n : Nat) : Nat := ((⟨m, false, false⟩ : ExtendedMantissa) >>> n).roundedMantissa

/-- A mantissa is kept if the first place dropped holds a zero. -/
theorem roundedMantissa_of_roundBit {em : ExtendedMantissa} (h : em.roundBit = false) :
    em.roundedMantissa = em.mantissa := by
  obtain ⟨m, roundBit, _ | _⟩ := em
  · obtain rfl : roundBit = false := h
    rfl
  · obtain rfl : roundBit = false := h
    rfl

/-- A shift with rounding leaves the quotient, or its successor if half of a unit or more is dropped. -/
theorem roundedShift_cases (m n : Nat) : roundedShift m n = m / 2 ^ n ∨
    roundedShift m n = m / 2 ^ n + 1 ∧ (2 * (m / 2 ^ n) + 1) * 2 ^ n ≤ 2 * m := by
  have hquotient : ((⟨m, false, false⟩ : ExtendedMantissa) >>> n).mantissa = m / 2 ^ n := mantissa_shiftRight _ n
  cases n with
  | zero => exact .inl (Nat.div_one m).symm
  | succ n =>
    have hbit : ((⟨m, false, false⟩ : ExtendedMantissa) >>> (n + 1)).roundBit = (m / 2 ^ n % 2 != 0) := by
      rw [← mantissa_shiftRight ⟨m, false, false⟩ n]
      rfl
    rcases Nat.mod_two_eq_zero_or_one (m / 2 ^ n) with heven | hodd
    · rw [heven] at hbit
      exact .inl ((roundedMantissa_of_roundBit hbit).trans hquotient)
    · rcases roundedMantissa_eq ((⟨m, false, false⟩ : ExtendedMantissa) >>> (n + 1)) with hdown | hup
      · exact .inl (hdown.trans hquotient)
      · refine .inr ⟨hup.trans (congrArg (· + 1) hquotient), ?_⟩
        have hhalf : 2 * (m / 2 ^ (n + 1)) + 1 = m / 2 ^ n := by
          rw [Nat.pow_succ, ← Nat.div_div_eq_div_mul]
          omega
        calc (2 * (m / 2 ^ (n + 1)) + 1) * 2 ^ (n + 1)
          _ = 2 * (m / 2 ^ n * 2 ^ n) := by rw [hhalf, Nat.pow_succ]; ring
          _ ≤ 2 * m := Nat.mul_le_mul_left 2 (Nat.div_mul_le_self m (2 ^ n))

/-- A shift with rounding leaves the quotient or its successor. -/
theorem roundedShift_bounds (m n : Nat) : m / 2 ^ n ≤ roundedShift m n ∧ roundedShift m n ≤ m / 2 ^ n + 1 := by
  rcases roundedShift_cases m n with h | ⟨h, -⟩ <;> omega

/-- Rounding adds half of a unit at most. -/
theorem two_mul_roundedShift_le (m n : Nat) : 2 * (roundedShift m n * 2 ^ n) ≤ 2 * m + 2 ^ n := by
  rcases roundedShift_cases m n with h | ⟨h, hhalf⟩
  · rw [h]
    exact Nat.le_add_right_of_le (Nat.mul_le_mul_left 2 (Nat.div_mul_le_self m (2 ^ n)))
  · rw [h]
    calc 2 * ((m / 2 ^ n + 1) * 2 ^ n) = (2 * (m / 2 ^ n) + 1) * 2 ^ n + 2 ^ n := by ring
      _ ≤ 2 * m + 2 ^ n := Nat.add_le_add_right hhalf _

/-- A whole number of units that is not exceeded before rounding is not exceeded after it. -/
theorem roundedShift_le_of_le {m n a : Nat} (h : m ≤ a * 2 ^ n) : roundedShift m n ≤ a := by
  have hquotient : m / 2 ^ n ≤ a := Nat.div_le_of_le_mul (Nat.mul_comm .. ▸ h)
  rcases roundedShift_cases m n with hdown | ⟨hup, hhalf⟩
  · exact hdown ▸ hquotient
  · rw [hup]
    refine Nat.lt_of_le_of_ne hquotient fun heq => ?_
    have hbeyond : (2 * a + 1) * 2 ^ n = 2 * (a * 2 ^ n) + 2 ^ n := by ring
    have hunit := Nat.two_pow_pos n
    rw [heq] at hhalf
    omega

end Mantissas

section Values

/-- The exact value of a mantissa and an exponent. -/
def value (m : Nat) (e : Int) : ℚ := m * 2 ^ e

/-- Values of one exponent are ordered as their mantissas. -/
theorem value_le_value {m₁ m₂ : Nat} {e : Int} : value m₁ e ≤ value m₂ e ↔ m₁ ≤ m₂ := by
  rw [value, value, mul_le_mul_iff_left₀ (by positivity), Nat.cast_le]

/-- Zeros at the end of a mantissa count for the exponent. -/
theorem value_mul_two_pow (m n : Nat) (e : Int) : value (m * 2 ^ n) e = value m (e + n) := by
  rw [value, value, Nat.cast_mul, Nat.cast_pow, Nat.cast_two, mul_assoc, add_comm e, zpow_add₀ two_ne_zero,
    zpow_natCast]

/-- Values are multiplied by their parts. -/
theorem value_mul (m₁ m₂ : Nat) (e₁ e₂ : Int) : value (m₁ * m₂) (e₁ + e₂) = value m₁ e₁ * value m₂ e₂ := by
  rw [value, value, value, Nat.cast_mul, zpow_add₀ two_ne_zero]
  ring

/-- The places of the mantissa and the exponent bound a value from below. -/
theorem zpow_le_value {m : Nat} (hm : m ≠ 0) (e : Int) : (2 : ℚ) ^ (m.log2 + e) ≤ value m e := by
  have hlog := Nat.log2_self_le hm
  have : value (2 ^ m.log2) e ≤ value m e := value_le_value.mpr hlog
  rwa [← Nat.one_mul (2 ^ _), value_mul_two_pow, value, Nat.cast_one, one_mul, add_comm e] at this

/-- The places of the mantissa and the exponent bound a value from above. -/
theorem value_lt_zpow {m n : Nat} (hm : m < 2 ^ n) (e : Int) : value m e < (2 : ℚ) ^ (n + e) := by
  rw [value, zpow_add₀ two_ne_zero, zpow_natCast]
  have : (m : ℚ) < 2 ^ n := by exact_mod_cast hm
  gcongr

/-- No value is negative. -/
theorem value_nonneg (m : Nat) (e : Int) : 0 ≤ value m e := mul_nonneg m.cast_nonneg (zpow_nonneg zero_le_two e)

/-- A value below a power of two has a smaller exponent than that. -/
theorem exponent_lt_of_value_lt {m : Nat} {e k : Int} (hm : m ≠ 0) (h : value m e < 2 ^ k) : e < k := by
  have hpower : (2 : ℚ) ^ (m.log2 + e) < 2 ^ k := (zpow_le_value hm e).trans_lt h
  have := (zpow_lt_zpow_iff_right₀ (one_lt_two : (1 : ℚ) < 2)).mp hpower
  omega

end Values

section Rounding

/-- The finite numbers: 53 places, or fewer at the least exponent. -/
def Canonical (m : Nat) (e : Int) : Prop := m.log2 = 52 ∧ -1074 ≤ e ∨ m < 2 ^ 52 ∧ e = -1074

/-- The exponent of the last place that is kept. -/
def lastPlace (m : Nat) (e : Int) : Int := max (m.log2 + e - 52) (-1074)

/-- The mantissa that is left after rounding, before a place more is taken away again. -/
def keptMantissa (m : Nat) (e : Int) : Nat := roundedShift m (lastPlace m e - e).toNat

variable {m : Nat} {e : Int}

/-- A finite number has at most 53 places. -/
theorem Canonical.lt (h : Canonical m e) : m < 2 ^ 53 := by
  rcases h with ⟨hfull, -⟩ | ⟨hlt, -⟩
  · exact lt_of_log2_eq hfull
  · omega

/-- A finite number is unpacked as it was packed. -/
theorem Canonical.unpack_pack (h : Canonical m e) (hhigh : e ≤ 971) (sign : Sign) (hpos : 0 < m) :
    unpack Format.binary64 (pack Format.binary64 (.finite sign m e hpos)) = .finite sign m e hpos := by
  rcases h with ⟨hfull, hlow⟩ | ⟨hlt, rfl⟩
  · rw [Floating.unpack_pack sign hfull hlow, if_pos hhigh]
  · have hplaces : m.log2 + 1 ≠ Format.binary64.mantissaBits := by
      have hlog := (Nat.log2_lt (Nat.ne_of_gt hpos)).mpr hlt
      change m.log2 + 1 ≠ 53
      omega
    have hmantissa : (BitVec.ofNat 52 m).toNat = m := Nat.mod_eq_of_lt hlt
    have hne : BitVec.ofNat 52 m ≠ 0#52 := fun hzero => by
      rw [hzero] at hmantissa
      exact Nat.ne_of_lt hpos hmantissa
    rw [pack]
    simp only [if_neg hplaces]
    rw [if_neg (by decide), unpack_packComponents sign (by decide), if_pos rfl, dif_neg hne]
    congr 1

/-- A mantissa with the exponent of its last place is kept. -/
theorem shiftToTargetExponent_self (hm : m < 2 ^ 53) (he : -1074 ≤ e) :
    shiftToTargetExponent Format.binary64 m e .exact = (⟨m, false, false⟩, e) := by
  have hplaces : m.log2 ≤ 52 := (log2_le_log2 (Nat.le_pred_of_lt hm)).trans (by decide)
  have hshift : (Format.binary64.targetExponent (totalExponent m e) - e).toNat = 0 := by
    change (max ((m.log2 : Int) + 1 + e - 53) (-1074) - e).toNat = 0
    omega
  rw [shiftToTargetExponent, shiftToExponent, hshift]
  exact congrArg (Prod.mk _) (Int.add_zero e)

/-- A mantissa that has become a power of two loses a place again. -/
theorem shiftToTargetExponent_carry (he : -1074 ≤ e) :
    shiftToTargetExponent Format.binary64 (2 ^ 53) e .exact = (⟨2 ^ 52, false, false⟩, e + 1) := by
  have hshift : (Format.binary64.targetExponent (totalExponent (2 ^ 53) e) - e).toNat = 1 := by
    change (max (((2 ^ 53 : Nat).log2 : Int) + 1 + e - 53) (-1074) - e).toNat = 1
    rw [Nat.log2_two_pow]
    omega
  rw [shiftToTargetExponent, shiftToExponent, hshift]
  rfl

/-- A mantissa of many places is shifted to the exponent of its last place that is kept. -/
theorem shiftToTargetExponent_lastPlace (hbits : 52 ≤ m.log2) : shiftToTargetExponent Format.binary64 m e .exact =
    ((⟨m, false, false⟩ : ExtendedMantissa) >>> (lastPlace m e - e).toNat, lastPlace m e) := by
  have htarget : Format.binary64.targetExponent (totalExponent m e) = lastPlace m e := by
    change max ((m.log2 : Int) + 1 + e - 53) (-1074) = max (m.log2 + e - 52) (-1074)
    omega
  rw [shiftToTargetExponent, shiftToExponent, htarget, Prod.mk.injEq]
  refine ⟨rfl, ?_⟩
  rw [lastPlace]
  omega

/-- The mantissa that is left has 53 places or is a power of two with one place more; it has fewer places at the
least exponent only. -/
theorem keptMantissa_places (hbits : 52 ≤ m.log2) :
    keptMantissa m e = 2 ^ 53 ∨ (keptMantissa m e).log2 = 52 ∨
      keptMantissa m e < 2 ^ 52 ∧ lastPlace m e = -1074 := by
  have hbounds := roundedShift_bounds m (lastPlace m e - e).toNat
  rw [← keptMantissa] at hbounds
  generalize hquotient : m / 2 ^ (lastPlace m e - e).toNat = q at hbounds
  have hplaces : q.log2 = 52 ∨ q.log2 < 52 ∧ lastPlace m e = -1074 := by
    have hlog : q.log2 = m.log2 - (lastPlace m e - e).toNat := by rw [← hquotient, log2_div_two_pow]
    rw [lastPlace] at hlog ⊢
    omega
  rcases hplaces with hfull | ⟨hfew, hleast⟩
  · have hq := (Nat.log2_eq_iff (ne_zero_of_log2_eq hfull)).mp hfull
    rw [Nat.log2_eq_iff (by omega)]
    omega
  · have hq : q < 2 ^ 52 := Nat.lt_of_lt_of_le Nat.lt_log2_self (Nat.pow_le_pow_right Nat.two_pos hfew)
    rcases Nat.lt_or_eq_of_le (show keptMantissa m e ≤ 2 ^ 52 by omega) with hlt | heq
    · exact .inr (.inr ⟨hlt, hleast⟩)
    · refine .inr (.inl ?_)
      rw [heq, Nat.log2_two_pow]

/-- The value of a rounded mantissa and exponent. -/
def roundedValue (m : Nat) (e : Int) : ℚ := value (keptMantissa m e) (lastPlace m e)

/-- A mantissa of many places becomes zero or a finite number of the rounded value. -/
theorem roundWithAccuracy_value (sign : Sign) (hbits : 52 ≤ m.log2) :
    roundWithAccuracy Format.binary64 sign m e .exact = .zero sign ∨
    ∃ m' e' hm', roundWithAccuracy Format.binary64 sign m e .exact = .finite sign m' e' hm' ∧ Canonical m' e' ∧
      value m' e' = roundedValue m e := by
  have hleast : -1074 ≤ lastPlace m e := le_max_right ..
  have hfirst : ((⟨m, false, false⟩ : ExtendedMantissa) >>> (lastPlace m e - e).toNat).roundedMantissa =
      keptMantissa m e := rfl
  rw [roundWithAccuracy, shiftToTargetExponent_lastPlace hbits]
  rcases keptMantissa_places (e := e) hbits with hcarry | hplaces
  · refine .inr ⟨2 ^ 52, lastPlace m e + 1, by decide, ?_, .inl ⟨Nat.log2_two_pow, by omega⟩, ?_⟩
    · simp only [hfirst, hcarry, shiftToTargetExponent_carry hleast]
      rfl
    · rw [roundedValue, hcarry]
      exact (value_mul_two_pow (2 ^ 52) 1 _).symm
  · have hlt : keptMantissa m e < 2 ^ 53 := by
      rcases hplaces with hfull | ⟨hlt, -⟩
      · exact lt_of_log2_eq hfull
      · omega
    simp only [hfirst, shiftToTargetExponent_self hlt hleast]
    by_cases hzero : keptMantissa m e = 0
    · exact .inl (dif_pos hzero)
    · refine .inr ⟨keptMantissa m e, lastPlace m e, Nat.pos_of_ne_zero hzero, dif_neg hzero, ?_, rfl⟩
      exact hplaces.imp_left fun hfull => ⟨hfull, hleast⟩

/-- Rounding adds half of a unit in the last place at most. -/
theorem roundedValue_le (he : e ≤ lastPlace m e) : roundedValue m e ≤ value m e + 2 ^ (lastPlace m e - 1) := by
  have hplace : lastPlace m e = e + ((lastPlace m e - e).toNat : Int) := by omega
  have hkept := two_mul_roundedShift_le m (lastPlace m e - e).toNat
  rw [← keptMantissa] at hkept
  rw [roundedValue]
  generalize keptMantissa m e = r at hkept
  generalize (lastPlace m e - e).toNat = n at hplace hkept
  have hkept' : (2 : ℚ) * (r * 2 ^ n) ≤ 2 * m + 2 ^ n := by exact_mod_cast hkept
  have hunit : (2 : ℚ) ^ (e + n - 1) = 2 ^ n * 2 ^ e / 2 := by
    rw [zpow_sub_one₀ two_ne_zero, add_comm e, zpow_add₀ two_ne_zero, zpow_natCast]
    ring
  have hscaled := mul_le_mul_of_nonneg_right hkept' (zpow_pos (two_pos : (0 : ℚ) < 2) e).le
  rw [hplace, ← value_mul_two_pow, hunit, value, value, Nat.cast_mul, Nat.cast_pow, Nat.cast_two]
  linarith

/-- A number of 53 places that the exact value does not exceed is not exceeded by the rounded one. -/
theorem roundedValue_le_of_le (hbits : 52 ≤ m.log2) (hlow : -1022 ≤ m.log2 + e) {a : Nat} {b : Int}
    (ha : a < 2 ^ 53)
    (h : value m e ≤ value a b) : roundedValue m e ≤ value a b := by
  have hlast : lastPlace m e = m.log2 + e - 52 := by
    rw [lastPlace]
    omega
  by_cases hb : lastPlace m e ≤ b
  · have hunits : value a b = value (a * 2 ^ (b - lastPlace m e).toNat) (lastPlace m e) := by
      rw [value_mul_two_pow]
      congr 1
      omega
    rw [hunits] at h ⊢
    refine value_le_value.mpr (roundedShift_le_of_le ?_)
    have hplace : lastPlace m e = e + ((lastPlace m e - e).toNat : Int) := by omega
    rwa [hplace, ← value_mul_two_pow, value_le_value, ← hplace] at h
  · -- a number of 53 places with places below the last one is less than the exact value
    have hbelow : value a b < value m e := by
      calc value a b < 2 ^ ((53 : Nat) + b) := value_lt_zpow ha b
        _ ≤ 2 ^ (m.log2 + e) := zpow_le_zpow_right₀ one_le_two (by omega)
        _ ≤ value m e := zpow_le_value (ne_zero_of_le_log2 hbits) e
    exact absurd h (not_le.mpr hbelow)

end Rounding

end ScannedPage.Floating
