import Mathlib

/-!
# Rounding to 53 bits

A number of `Float` that is finite and not too small has a mantissa of 53 binary places, the first of them set, and
an exponent. Every operation computes a mantissa and an exponent and rounds them once. Rounding drops the places
beyond the 53, and the mantissa that is left may become a power of two with one place more
(`roundWithAccuracy_eq`). So the exponent tells how large the result is up to a factor of two, and a mantissa that
has zeros in the places beyond is kept as it is (`roundWithAccuracy_exact`). Packed into a word and unpacked again
a full mantissa is the same, unless the exponent is too large for the word (`unpack_pack`).
-/

namespace ScannedPage.Floating

open Float.Model (Format UnpackedFloat totalExponent)
open Float.Model.UnpackedFloat

section Places

/-- Zero does not have 53 places. -/
theorem ne_zero_of_log2_eq {m : Nat} (h : m.log2 = 52) : m ≠ 0 := by
  rintro rfl
  exact absurd h (by decide)

/-- A number of at least 53 places is not zero. -/
theorem ne_zero_of_le_log2 {m : Nat} (h : 52 ≤ m.log2) : m ≠ 0 := by
  rintro rfl
  exact absurd h (by decide)

/-- A mantissa of 53 places is below the power of two with one place more. -/
theorem lt_of_log2_eq {m : Nat} (h : m.log2 = 52) : m < 2 ^ 53 := ((Nat.log2_eq_iff (ne_zero_of_log2_eq h)).mp h).2

/-- A shift to the left adds places. -/
theorem log2_mul_two_pow {m : Nat} (hm : m ≠ 0) (n : Nat) : (m * 2 ^ n).log2 = m.log2 + n := by
  have hbounds := (Nat.log2_eq_iff hm).mp rfl
  refine (Nat.log2_eq_iff (Nat.mul_ne_zero hm (Nat.ne_of_gt (Nat.two_pow_pos n)))).mpr ⟨?_, ?_⟩
  · rw [Nat.pow_add]
    exact Nat.mul_le_mul_right _ hbounds.1
  · rw [Nat.add_right_comm, Nat.pow_add]
    exact Nat.mul_lt_mul_of_pos_right hbounds.2 (Nat.two_pow_pos n)

/-- A shift to the right takes places away. -/
theorem log2_div_two_pow (m n : Nat) : (m / 2 ^ n).log2 = m.log2 - n := by
  rw [Nat.log2_eq_log_two, Nat.log_div_base_pow, Nat.log2_eq_log_two]

/-- A greater number has no fewer places. -/
theorem log2_le_log2 {m n : Nat} (h : m ≤ n) : m.log2 ≤ n.log2 := by
  rw [Nat.log2_eq_log_two, Nat.log2_eq_log_two]
  exact Nat.log_mono_right h

end Places

section Shifts

/-- A shift to the right of a mantissa with its two further places divides the mantissa. -/
theorem mantissa_shiftRight (em : ExtendedMantissa) (n : Nat) : (em >>> n).mantissa = em.mantissa / 2 ^ n := by
  change (n.repeat ExtendedMantissa.shiftRightOne em).mantissa = _
  induction n with
  | zero => exact (Nat.div_one _).symm
  | succ n ih =>
    change (n.repeat ExtendedMantissa.shiftRightOne em).mantissa / 2 = _
    rw [ih, Nat.div_div_eq_div_mul, Nat.pow_succ]

/-- A shift that drops zeros only leaves nothing to round. -/
theorem shiftRight_mul_two_pow (m n : Nat) :
    (⟨m * 2 ^ n, false, false⟩ : ExtendedMantissa) >>> n = ⟨m, false, false⟩ := by
  change n.repeat ExtendedMantissa.shiftRightOne ⟨m * 2 ^ n, false, false⟩ = _
  induction n generalizing m with
  | zero =>
    rw [Nat.pow_zero, Nat.mul_one]
    rfl
  | succ n ih =>
    change (n.repeat ExtendedMantissa.shiftRightOne ⟨m * 2 ^ (n + 1), false, false⟩).shiftRightOne = _
    rw [Nat.pow_succ', ← Nat.mul_assoc, ih, ExtendedMantissa.shiftRightOne]
    simp

/-- What is known about the places beyond a mantissa does not change it. -/
theorem mantissa_ofMantissaAndAccuracy (m : Nat) (accuracy : Accuracy) :
    (ExtendedMantissa.ofMantissaAndAccuracy m accuracy).mantissa = m := by
  rcases accuracy with _ | (_ | _ | _) <;> rfl

/-- A mantissa is rounded to itself or to its successor. -/
theorem roundedMantissa_eq (em : ExtendedMantissa) :
    em.roundedMantissa = em.mantissa ∨ em.roundedMantissa = em.mantissa + 1 := by
  rcases em with ⟨m, _ | _, _ | _⟩
  · exact .inl rfl
  · exact .inl rfl
  · have hparity := Nat.mod_two_eq_zero_or_one m
    simp only [ExtendedMantissa.roundedMantissa, ExtendedMantissa.accuracy, Accuracy.roundToNearestEven]
    omega
  · exact .inr rfl

end Shifts

section Rounding

variable {m : Nat} {e : Int}

/-- A number that is not too small gets the exponent that leaves its mantissa 53 places. -/
theorem targetExponent_eq (hlow : -1022 ≤ m.log2 + e) :
    Format.binary64.targetExponent (totalExponent m e) = m.log2 + e - 52 := by
  change max ((m.log2 : Int) + 1 + e - 53) (-1074) = _
  omega

/-- A mantissa with more places than are kept is shifted to the right to its exponent. -/
theorem shiftToTargetExponent_eq (accuracy : Accuracy) (hbits : 52 ≤ m.log2) (hlow : -1022 ≤ m.log2 + e) :
    shiftToTargetExponent Format.binary64 m e accuracy =
      (ExtendedMantissa.ofMantissaAndAccuracy m accuracy >>> (m.log2 - 52), m.log2 + e - 52) := by
  have hshift : ((m.log2 : Int) + e - 52 - e).toNat = m.log2 - 52 := by omega
  rw [shiftToTargetExponent, shiftToExponent, targetExponent_eq hlow, hshift, Prod.mk.injEq]
  exact ⟨rfl, by omega⟩

/-- A mantissa of at least 53 places is rounded to 53 places, and the exponent tells its size up to a factor of
two. -/
theorem roundWithAccuracy_eq (sign : Sign) (accuracy : Accuracy) (hbits : 52 ≤ m.log2)
    (hlow : -1022 ≤ m.log2 + e) :
    ∃ m' e' hm', roundWithAccuracy Format.binary64 sign m e accuracy = .finite sign m' e' hm' ∧ m'.log2 = 52 ∧
      m.log2 + e ≤ e' + 52 ∧ e' + 52 ≤ m.log2 + e + 1 := by
  generalize hem : ExtendedMantissa.ofMantissaAndAccuracy m accuracy >>> (m.log2 - 52) = em
  have hmantissa : em.mantissa.log2 = 52 := by
    rw [← hem, mantissa_shiftRight, mantissa_ofMantissaAndAccuracy, log2_div_two_pow]
    omega
  have hrounded : em.roundedMantissa.log2 = 52 ∨ em.roundedMantissa.log2 = 53 := by
    have hbounds := (Nat.log2_eq_iff (ne_zero_of_log2_eq hmantissa)).mp hmantissa
    have hcases := roundedMantissa_eq em
    have hpos : em.roundedMantissa ≠ 0 := by omega
    rw [Nat.log2_eq_iff hpos, Nat.log2_eq_iff hpos]
    omega
  -- the second shift is by one place if rounding has made a power of two, and by none otherwise
  have hlast : (em.roundedMantissa / 2 ^ (em.roundedMantissa.log2 - 52)).log2 = 52 := by
    rw [log2_div_two_pow]
    omega
  refine ⟨_, em.roundedMantissa.log2 + (m.log2 + e - 52) - 52, Nat.pos_of_ne_zero (ne_zero_of_log2_eq hlast), ?_,
    hlast, by omega, by omega⟩
  rw [roundWithAccuracy, shiftToTargetExponent_eq accuracy hbits hlow, hem]
  simp only [shiftToTargetExponent_eq (m := em.roundedMantissa) (e := m.log2 + e - 52) .exact (by omega)
    (by omega), mantissa_shiftRight, mantissa_ofMantissaAndAccuracy]
  exact dif_neg (ne_zero_of_log2_eq hlast)

/-- A mantissa of 53 places followed by zeros is not changed. -/
theorem roundWithAccuracy_exact (sign : Sign) (hm : m.log2 = 52) (hlow : -1074 ≤ e) (n : Nat) :
    roundWithAccuracy Format.binary64 sign (m * 2 ^ n) (e - n) .exact =
      .finite sign m e (Nat.pos_of_ne_zero (ne_zero_of_log2_eq hm)) := by
  have hne := ne_zero_of_log2_eq hm
  have hlog : (m * 2 ^ n).log2 = 52 + n := by rw [log2_mul_two_pow hne, hm]
  have hfirst : shiftToTargetExponent Format.binary64 (m * 2 ^ n) (e - n) .exact = (⟨m, false, false⟩, e) := by
    rw [shiftToTargetExponent_eq .exact (by omega) (by omega), hlog, Nat.add_sub_cancel_left]
    refine Prod.ext (shiftRight_mul_two_pow m n) ?_
    dsimp only
    omega
  have hsecond : shiftToTargetExponent Format.binary64 m e .exact = (⟨m, false, false⟩, e) := by
    rw [shiftToTargetExponent_eq .exact (by omega) (by omega), hm]
    refine Prod.ext rfl ?_
    dsimp only
    omega
  have hrounded : (⟨m, false, false⟩ : ExtendedMantissa).roundedMantissa = m := rfl
  rw [roundWithAccuracy, hfirst]
  simp only [hrounded, hsecond]
  exact dif_neg hne

/-- A positive number of any places is rounded to 53 places. -/
theorem round_eq (sign : Sign) (hm : m ≠ 0) (hlow : -1022 ≤ m.log2 + e) :
    ∃ m' e' hm', UnpackedFloat.round Format.binary64 sign m e = .finite sign m' e' hm' ∧ m'.log2 = 52 ∧
      m.log2 + e ≤ e' + 52 ∧ e' + 52 ≤ m.log2 + e + 1 := by
  have hlog := log2_mul_two_pow hm (e - (m.log2 + e - 52)).toNat
  obtain ⟨m', e', hm', heq, hfull, hge, hle⟩ := roundWithAccuracy_eq (m := m * 2 ^ (e - (m.log2 + e - 52)).toNat)
    (e := e - (e - (m.log2 + e - 52)).toNat) sign .exact (by omega) (by omega)
  refine ⟨m', e', hm', ?_, hfull, by omega, by omega⟩
  rw [UnpackedFloat.round, targetExponent_eq hlow]
  simp only [decreaseExponent, Nat.shiftLeft_eq]
  exact heq

/-- A positive number of at most 53 places is filled up with zeros. -/
theorem round_exact (sign : Sign) (hm : m ≠ 0) (hbits : m.log2 ≤ 52) (hlow : -1022 ≤ m.log2 + e) :
    ∃ hm', UnpackedFloat.round Format.binary64 sign m e = .finite sign (m * 2 ^ (52 - m.log2))
      (m.log2 + e - 52) hm' := by
  have hlog : (m * 2 ^ (52 - m.log2)).log2 = 52 := by
    rw [log2_mul_two_pow hm]
    omega
  have hshift : (e - (m.log2 + e - 52)).toNat = 52 - m.log2 := by omega
  refine ⟨_, Eq.trans ?_ (roundWithAccuracy_exact sign hlog (by omega) 0)⟩
  rw [UnpackedFloat.round, targetExponent_eq hlow]
  simp only [decreaseExponent, Nat.shiftLeft_eq, hshift]
  rw [Nat.pow_zero, Nat.mul_one]
  congr 1
  omega

/-- A positive number is rounded. -/
theorem normalize_eq (hm : m ≠ 0) (e : Int) (zeroSign : Sign) :
    UnpackedFloat.normalize Format.binary64 m e zeroSign = UnpackedFloat.round Format.binary64 .positive m e := by
  rw [UnpackedFloat.normalize, Int.compare_eq_gt.mpr (by omega)]
  rfl

/-- Zero is kept. -/
theorem normalize_zero (e : Int) (zeroSign : Sign) :
    UnpackedFloat.normalize Format.binary64 ((0 : Nat) : Int) e zeroSign = .zero zeroSign := by
  rw [UnpackedFloat.normalize, Int.compare_eq_eq.mpr (by rfl)]

end Rounding

section Packing

/-- The place before the 52 packed ones. -/
theorem toNat_one_append (mantissa : BitVec 52) : (1#1 ++ mantissa).toNat = 2 ^ 52 + mantissa.toNat := by
  rw [BitVec.toNat_append, ← Nat.shiftLeft_add_eq_or_of_lt mantissa.isLt]
  rfl

/-- A word whose exponent is not the last one unpacks to a zero or to a finite number of its sign. -/
theorem unpack_packComponents (sign : Sign) {exponent : BitVec 11} (hlast : exponent ≠ -1#11)
    (mantissa : BitVec 52) :
    unpack Format.binary64 (packComponents Format.binary64 sign exponent mantissa) =
      if exponent = 0#11 then
        if h : mantissa = 0#52 then .zero sign
        else .finite sign mantissa.toNat (exponent.toNat - 1075 + 1)
          (by simpa [BitVec.toNat_pos, BitVec.pos_iff_ne_zero])
      else .finite sign (1#1 ++ mantissa).toNat (exponent.toNat - 1075) (by rw [toNat_one_append]; omega) := by
  rw [unpack]
  simp only [unpackMantissa_packComponents, unpackExponent_packComponents, unpackSign_packComponents,
    Sign.ofBitVec_toBitVec]
  exact if_neg hlast

/-- An unpacked mantissa has 53 places, except at the least exponent. -/
theorem unpack_finite {bits : BitVec Format.binary64.numBits} {sign : Sign} {m : Nat} {e : Int} {hm : 0 < m}
    (h : unpack Format.binary64 bits = .finite sign m e hm) : m.log2 = 52 ∨ m < 2 ^ 52 ∧ e = -1074 := by
  have hmantissa : (unpackMantissa bits).toNat < 2 ^ 52 := (unpackMantissa bits).isLt
  rw [unpack] at h
  split_ifs at h with _ _ hzero
  · injection h with _ hm he
    refine .inr ⟨hm ▸ hmantissa, ?_⟩
    rw [← he, hzero]
    rfl
  · injection h with _ hm
    refine .inl ((Nat.log2_eq_iff (by omega)).mpr ?_)
    rw [toNat_one_append] at hm
    omega

/-- A packed exponent is not the last one. -/
theorem ofNat_exponent_ne {biased : Nat} (h : biased + 1 < 2 ^ 11) :
    BitVec.ofNat 11 biased ≠ -1#11 := fun heq => by
  have hnat := congrArg BitVec.toNat heq
  rw [BitVec.toNat_ofNat] at hnat
  change _ = 2047 at hnat
  omega

/-- A full mantissa is unpacked as it was packed, or was too large to be packed. -/
theorem unpack_pack (sign : Sign) {m : Nat} {e : Int} (hm : m.log2 = 52) (hlow : -1074 ≤ e) (hpos : 0 < m) :
    unpack Format.binary64 (pack Format.binary64 (.finite sign m e hpos)) =
      if e ≤ 971 then .finite sign m e hpos else .infinity sign := by
  have hbiased : (e + Format.binary64.exponentBias + Format.binary64.mantissaBitsWithoutImplicit).toNat =
      (e + 1075).toNat := by
    change (e + (1023 : Nat) + (52 : Nat)).toNat = _
    omega
  have hplaces : 52 + 1 = Format.binary64.mantissaBits := rfl
  rw [pack]
  simp only [hm, hbiased, if_pos hplaces]
  by_cases hhigh : e ≤ 971
  · have hexponent : (BitVec.ofNat 11 (e + 1075).toNat).toNat = (e + 1075).toNat := Nat.mod_eq_of_lt (by omega)
    have hbounds := (Nat.log2_eq_iff (Nat.ne_of_gt hpos)).mp hm
    have hfirst : BitVec.ofNat 11 (e + 1075).toNat ≠ 0#11 := fun heq => by
      have hnat := congrArg BitVec.toNat heq
      rw [hexponent] at hnat
      change _ = 0 at hnat
      omega
    rw [if_pos hhigh, if_neg (by omega), unpack_packComponents sign (ofNat_exponent_ne (by omega)), if_neg hfirst]
    congr 1
    · rw [toNat_one_append, BitVec.toNat_ofNat]
      omega
    · rw [hexponent]
      omega
  · rw [if_neg hhigh, if_pos (by omega)]
    cases sign <;> rfl

end Packing

end ScannedPage.Floating
