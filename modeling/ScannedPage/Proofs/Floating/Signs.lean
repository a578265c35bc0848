import ScannedPage.Proofs.Floating.Rounding

/-!
# The sign of rounded results

Rounding never makes a negative number of a positive one, and what is at least one stays at least one. So sums of
numbers that are not negative are not negative, and a sum with one summand of at least one is at least one. The
difference of two whole numbers of at most 53 places has the sign of the exact one, and a number of at least one
divided by a whole number is not lost in the rounding. Not-a-number is on neither side of zero.
-/

namespace ScannedPage.Floating

open Float.Model (Format UnpackedFloat totalExponent)
open Float.Model.UnpackedFloat

section Comparison

/-- A zero of either sign, a positive number, or positive infinity. -/
def Nonneg : UnpackedFloat → Prop
  | .zero _ | .infinity .positive | .finite .positive _ _ _ => True
  | _ => False

/-- Positive infinity, or a positive number of 53 places that is not below one. -/
def AtLeastOne : UnpackedFloat → Prop
  | .infinity .positive => True
  | .finite .positive m e _ => m.log2 = 52 ∧ -52 ≤ e
  | _ => False

/-- What is at least one is not negative. -/
theorem AtLeastOne.nonneg {u : UnpackedFloat} (h : AtLeastOne u) : Nonneg u := by
  rcases u with (_ | _) | _ | _ | ⟨_ | _, _, _⟩ <;> trivial

/-- The order of numbers is that of the unpacked ones. -/
theorem le_iff {a b : Float} : a ≤ b ↔ UnpackedFloat.le a.toModel.unpack b.toModel.unpack = true := by
  change decide (UnpackedFloat.le _ _ = true) = true ↔ _
  rw [decide_eq_true_eq]

/-- The strict order of numbers is that of the unpacked ones. -/
theorem lt_iff {a b : Float} : a < b ↔ UnpackedFloat.lt a.toModel.unpack b.toModel.unpack = true := by
  change decide (UnpackedFloat.lt _ _ = true) = true ↔ _
  rw [decide_eq_true_eq]

/-- The numbers that are not negative are those from zero on. -/
theorem zero_le_iff {a : Float} : Float.ofNat 0 ≤ a ↔ Nonneg a.toModel.unpack := by
  have hzero : (Float.ofNat 0).toModel.unpack = .zero .positive := rfl
  rw [le_iff, hzero]
  rcases a.toModel.unpack with (_ | _) | _ | _ | ⟨_ | _, _, _⟩ <;>
    simp [UnpackedFloat.le, UnpackedFloat.compare, Nonneg]

/-- The numbers of at least one are those from one on. -/
theorem one_le_iff {a : Float} : Float.ofNat 1 ≤ a ↔ AtLeastOne a.toModel.unpack := by
  have hone : (Float.ofNat 1).toModel.unpack = .finite .positive (2 ^ 52) (-52) (by decide) := rfl
  rw [le_iff, hone]
  cases hu : a.toModel.unpack with
  | infinity sign => cases sign <;> simp [UnpackedFloat.le, UnpackedFloat.compare, AtLeastOne]
  | notANumber => simp [UnpackedFloat.le, UnpackedFloat.compare, AtLeastOne]
  | zero sign => simp [UnpackedFloat.le, UnpackedFloat.compare, AtLeastOne]
  | finite sign m e hm =>
    cases sign with
    | negative => simp [UnpackedFloat.le, UnpackedFloat.compare, AtLeastOne]
    | positive =>
      have hplaces := unpack_finite hu
      have hlog := Nat.log2_eq_iff (k := 52) (Nat.ne_of_gt hm)
      simp only [UnpackedFloat.le, UnpackedFloat.compare, AtLeastOne, Option.any_some, Ordering.isLE_then_iff_or,
        Int.compare_eq_lt, Int.compare_eq_eq, Nat.isLE_compare]
      omega

end Comparison

section Packing

/-- A word of positive sign whose exponent is not the last one is not negative. -/
theorem nonneg_unpack_packComponents {exponent : BitVec 11} (hlast : exponent ≠ -1#11) (mantissa : BitVec 52) :
    Nonneg (unpack Format.binary64 (packComponents Format.binary64 .positive exponent mantissa)) := by
  rw [unpack_packComponents .positive hlast]
  split_ifs <;> trivial

/-- Packing makes nothing negative. -/
theorem Nonneg.unpack_pack {u : UnpackedFloat} (h : Nonneg u) :
    Nonneg (unpack Format.binary64 (pack Format.binary64 u)) := by
  rcases u with (_ | _) | _ | (_ | _) | ⟨_ | _, m, e, hm⟩
  case finite.positive =>
    rw [pack]
    dsimp only
    split_ifs with hover
    · trivial
    · exact nonneg_unpack_packComponents (ofNat_exponent_ne (Nat.lt_of_not_le hover)) _
    · exact nonneg_unpack_packComponents (by decide) _
  all_goals first | exact h.elim | trivial

/-- Packing keeps what is at least one. -/
theorem AtLeastOne.unpack_pack {u : UnpackedFloat} (h : AtLeastOne u) :
    AtLeastOne (unpack Format.binary64 (pack Format.binary64 u)) := by
  rcases u with (_ | _) | _ | _ | ⟨_ | _, m, e, hm⟩
  case finite.positive =>
    obtain ⟨hfull, hlow⟩ := h
    rw [Floating.unpack_pack .positive hfull (by omega) hm]
    split_ifs
    · exact ⟨hfull, hlow⟩
    · trivial
  all_goals first | exact h.elim | trivial

end Packing

section Sums

/-- Rounding makes nothing negative. -/
theorem nonneg_round (m : Nat) (e : Int) : Nonneg (UnpackedFloat.round Format.binary64 .positive m e) := by
  simp only [UnpackedFloat.round, roundWithAccuracy]
  split_ifs <;> trivial

/-- Rounding keeps what is at least one. -/
theorem atLeastOne_round {m : Nat} {e : Int} (hm : m ≠ 0) (h : 0 ≤ m.log2 + e) :
    AtLeastOne (UnpackedFloat.round Format.binary64 .positive m e) := by
  obtain ⟨m', e', hm', heq, hfull, hge, -⟩ := round_eq (e := e) .positive hm (by omega)
  rw [heq]
  exact ⟨hfull, by omega⟩

/-- The sum of two positive numbers is rounded once. -/
theorem add_positive {m₁ m₂ : Nat} (e₁ e₂ : Int) (h₁ : 0 < m₁) (h₂ : 0 < m₂) :
    add Format.binary64 (.finite .positive m₁ e₁ h₁) (.finite .positive m₂ e₂ h₂) =
      UnpackedFloat.round Format.binary64 .positive
        (m₁ * 2 ^ (e₁ - min e₁ e₂).toNat + m₂ * 2 ^ (e₂ - min e₁ e₂).toNat)
        (min e₁ e₂) := by
  have hpos : m₁ * 2 ^ (e₁ - min e₁ e₂).toNat + m₂ * 2 ^ (e₂ - min e₁ e₂).toNat ≠ 0 :=
    Nat.ne_of_gt (Nat.add_pos_left (Nat.mul_pos h₁ (Nat.two_pow_pos _)) _)
  rw [← normalize_eq hpos _ .positive]
  simp only [add, decreaseExponent, Sign.apply, Nat.shiftLeft_eq, Int.natCast_add]

/-- A sum of numbers that are not negative is not negative. -/
theorem Nonneg.add {u v : UnpackedFloat} (hu : Nonneg u) (hv : Nonneg v) : Nonneg (add Format.binary64 u v) := by
  rcases u with (_ | _) | _ | (_ | _) | ⟨_ | _, m₁, e₁, h₁⟩ <;>
    rcases v with (_ | _) | _ | (_ | _) | ⟨_ | _, m₂, e₂, h₂⟩
  case finite.positive.finite.positive => exact add_positive e₁ e₂ h₁ h₂ ▸ nonneg_round ..
  all_goals trivial

/-- A sum of numbers that are not negative does not depend on the order of the summands. -/
theorem Nonneg.add_comm {u v : UnpackedFloat} (hu : Nonneg u) (hv : Nonneg v) :
    UnpackedFloat.add Format.binary64 u v = UnpackedFloat.add Format.binary64 v u := by
  rcases u with (_ | _) | _ | (_ | _) | ⟨_ | _, m₁, e₁, h₁⟩ <;>
    rcases v with (_ | _) | _ | (_ | _) | ⟨_ | _, m₂, e₂, h₂⟩
  case finite.positive.finite.positive => rw [add_positive, add_positive, Int.min_comm, Nat.add_comm]
  all_goals first | exact hu.elim | exact hv.elim | rfl

/-- A sum of numbers that are not negative is at least one if the first of them is. -/
theorem AtLeastOne.add {u v : UnpackedFloat} (hu : AtLeastOne u) (hv : Nonneg v) :
    AtLeastOne (UnpackedFloat.add Format.binary64 u v) := by
  rcases u with (_ | _) | _ | (_ | _) | ⟨_ | _, m₁, e₁, h₁⟩ <;>
    rcases v with (_ | _) | _ | (_ | _) | ⟨_ | _, m₂, e₂, h₂⟩
  case finite.positive.finite.positive =>
    have hlog := log2_mul_two_pow (Nat.ne_of_gt h₁) (e₁ - min e₁ e₂).toNat
    have hle := log2_le_log2 (Nat.le_add_right (m₁ * 2 ^ (e₁ - min e₁ e₂).toNat) (m₂ * 2 ^ (e₂ - min e₁ e₂).toNat))
    obtain ⟨hfull, hlow⟩ := hu
    rw [add_positive e₁ e₂ h₁ h₂]
    refine atLeastOne_round (Nat.ne_of_gt (Nat.add_pos_left (Nat.mul_pos h₁ (Nat.two_pow_pos _)) _)) ?_
    omega
  all_goals first | exact hu | trivial

variable {a b : Float}

/-- Numbers that are not negative have a sum that is not negative. -/
theorem add_nonneg (ha : Float.ofNat 0 ≤ a) (hb : Float.ofNat 0 ≤ b) : Float.ofNat 0 ≤ a + b :=
  zero_le_iff.mpr ((zero_le_iff.mp ha).add (zero_le_iff.mp hb)).unpack_pack

/-- A number of at least one has a sum of at least one with every number that is not negative. -/
theorem one_le_add (ha : Float.ofNat 1 ≤ a) (hb : Float.ofNat 0 ≤ b) : Float.ofNat 1 ≤ a + b :=
  one_le_iff.mpr ((one_le_iff.mp ha).add (zero_le_iff.mp hb)).unpack_pack

/-- Numbers that are not negative have one sum in both orders. -/
theorem add_comm_of_nonneg (ha : Float.ofNat 0 ≤ a) (hb : Float.ofNat 0 ≤ b) : a + b = b + a :=
  congrArg (fun u => Float.ofModel (.pack u)) ((zero_le_iff.mp ha).add_comm (zero_le_iff.mp hb))

end Sums

section WholeNumbers

/-- A whole number of at most 53 places is exact. -/
theorem unpack_ofNat {n : Nat} (hn : n ≠ 0) (hlt : n < 2 ^ 53) : ∃ hm,
    (Float.ofNat n).toModel.unpack = .finite .positive (n * 2 ^ (52 - n.log2)) (n.log2 - 52) hm := by
  have hplaces : n.log2 < 53 := (Nat.log2_lt hn).mpr hlt
  have hfull : (n * 2 ^ (52 - n.log2)).log2 = 52 := by
    rw [log2_mul_two_pow hn]
    omega
  obtain ⟨hm, hround⟩ := round_exact (e := 0) .positive hn (by omega) (by omega)
  have hword : n.toUInt64.toNat = n := by
    rw [Nat.toUInt64, UInt64.toNat_ofNat']
    omega
  have hcast : n.toUInt64.toFloat.toModel.unpack = .finite .positive (n * 2 ^ (52 - n.log2)) (n.log2 - 52) hm := by
    change unpack _ (pack _ (UnpackedFloat.normalize Format.binary64 (n.toUInt64.toNat : Nat) 0 .positive)) = _
    rw [hword, normalize_eq hn, hround, unpack_pack .positive hfull (by omega), if_pos (by omega)]
    congr 1
  -- the conversion scales by a power of ten, which is one here
  have hofNat : Float.ofNat n = n.toUInt64.toFloat * Float.ofBits 0x3FF0000000000000 := dif_pos ⟨hlt, by decide⟩
  have hone : (Float.ofBits 0x3FF0000000000000).toModel.unpack = .finite .positive (2 ^ 52) (-52) (by decide) :=
    rfl
  have hexact := roundWithAccuracy_exact (e := n.log2 - 52) .positive hfull (by omega) 52
  refine ⟨hm, ?_⟩
  rw [hofNat]
  change unpack _ (pack _
    (mul _ n.toUInt64.toFloat.toModel.unpack (Float.ofBits 0x3FF0000000000000).toModel.unpack)) = _
  rw [hcast, hone]
  change unpack _ (pack _
    (roundWithAccuracy _ .positive (n * 2 ^ (52 - n.log2) * 2 ^ 52) (n.log2 - 52 + -52) .exact)) = _
  change roundWithAccuracy _ _ _ (n.log2 - 52 + -52) _ = _ at hexact
  rw [hexact, unpack_pack .positive hfull (by omega), if_pos (by omega)]

/-- The difference of two whole numbers of at most 53 places is exact until it is rounded. -/
theorem sub_ofNat {low high : Nat} (hpos : 0 < low) (hle : low ≤ high) (hlt : high < 2 ^ 53) :
    sub Format.binary64 (Float.ofNat high).toModel.unpack (Float.ofNat low).toModel.unpack =
      UnpackedFloat.normalize Format.binary64 ((high - low) * 2 ^ (52 - low.log2) : Nat)
        (low.log2 - 52) .positive := by
  have hhigh : high ≠ 0 := by omega
  obtain ⟨hm, hunpack⟩ := unpack_ofNat hhigh hlt
  obtain ⟨hm', hunpack'⟩ := unpack_ofNat (Nat.ne_of_gt hpos) (by omega)
  have hlog := log2_le_log2 hle
  have hplaces : high.log2 < 53 := (Nat.log2_lt hhigh).mpr hlt
  have hmin : min ((high.log2 : Int) - 52) (low.log2 - 52) = low.log2 - 52 := by omega
  have hshift : ((high.log2 : Int) - 52 - (low.log2 - 52)).toNat = high.log2 - low.log2 := by omega
  have hshift' : ((low.log2 : Int) - 52 - (low.log2 - 52)).toNat = 0 := by omega
  have hsum : 52 - high.log2 + (high.log2 - low.log2) = 52 - low.log2 := by omega
  have hdifference : ((high * 2 ^ (52 - high.log2) * 2 ^ (high.log2 - low.log2) : Nat) : Int) -
      (low * 2 ^ (52 - low.log2) : Nat) = ((high - low) * 2 ^ (52 - low.log2) : Nat) := by
    rw [Nat.mul_assoc, ← Nat.pow_add, hsum, Nat.sub_mul, Int.natCast_sub (Nat.mul_le_mul_right _ hle)]
  rw [hunpack, hunpack']
  simp only [sub, decreaseExponent, Sign.apply, Nat.shiftLeft_eq, hmin, hshift, hshift', Nat.pow_zero, Nat.mul_one,
    hdifference]

/-- A whole number less a smaller one is at least one. -/
theorem one_le_sub_ofNat {low high : Nat} (hlow : low < high) (hlt : high < 2 ^ 53) :
    Float.ofNat 1 ≤ Float.ofNat high - Float.ofNat low := by
  have hplaces : high.log2 < 53 := (Nat.log2_lt (by omega)).mpr hlt
  rw [one_le_iff]
  change AtLeastOne (unpack _ (pack _ (sub _ _ _)))
  refine AtLeastOne.unpack_pack ?_
  rcases Nat.eq_zero_or_pos low with rfl | hpos
  · obtain ⟨hm, hunpack⟩ := unpack_ofNat (Nat.ne_of_gt hlow) hlt
    have hlog := log2_mul_two_pow (Nat.ne_of_gt hlow) (52 - high.log2)
    rw [hunpack]
    refine (⟨?_, ?_⟩ : AtLeastOne (.finite .positive (high * 2 ^ (52 - high.log2)) (high.log2 - 52) hm))
    · omega
    · omega
  · have hne : high - low ≠ 0 := by omega
    have hlog := log2_mul_two_pow hne (52 - low.log2)
    have hmul : (high - low) * 2 ^ (52 - low.log2) ≠ 0 := Nat.mul_ne_zero hne (Nat.ne_of_gt (Nat.two_pow_pos _))
    rw [sub_ofNat hpos (Nat.le_of_lt hlow) hlt, normalize_eq hmul]
    exact atLeastOne_round hmul (by omega)

/-- A whole number less one that is not greater is not negative. -/
theorem sub_ofNat_nonneg {low high : Nat} (hle : low ≤ high) (hlt : high < 2 ^ 53) :
    Float.ofNat 0 ≤ Float.ofNat high - Float.ofNat low := by
  rw [zero_le_iff]
  rcases Nat.eq_or_lt_of_le hle with rfl | hlow
  · rcases Nat.eq_zero_or_pos low with rfl | hpos
    · trivial
    · change Nonneg (unpack _ (pack _ (sub _ _ _)))
      rw [sub_ofNat hpos hle hlt, Nat.sub_self, Nat.zero_mul, normalize_zero]
      trivial
  · exact (one_le_iff.mp (one_le_sub_ofNat hlow hlt)).nonneg

/-- A whole number of more than 53 places is rounded once. -/
theorem ofNat_eq_round {n : Nat} (hge : 2 ^ 53 ≤ n) :
    Float.ofNat n = .ofModel (.pack (roundWithAccuracy Format.binary64 .positive (n * 2 ^ 53) (-53) .exact)) := by
  have hofNat : Float.ofNat n = .ofModel (.ofScientific n 0) := dif_neg fun h => Nat.not_lt.mpr hge h.1
  have hmantissa : n <<< Format.binary64.mantissaBits * 10 ^ (0 : Int).toNat = n * 2 ^ 53 := by
    rw [Nat.shiftLeft_eq]
    exact Nat.mul_one _
  have hbound : ¬ (0 : Int) < -((2 ^ Format.binary64.exponentBits : Int) + n.log2) := by
    change ¬ (0 : Int) < -(2048 + n.log2)
    omega
  have hscientific : UnpackedFloat.ofScientific Format.binary64 n 0 =
      roundWithAccuracy Format.binary64 .positive (n * 2 ^ 53) (-53) .exact := by
    rw [UnpackedFloat.ofScientific, dif_neg (by omega), if_neg (by decide), if_neg hbound, if_pos (by decide)]
    simp only [mul, hmantissa]
    rfl
  rw [hofNat, ← hscientific]
  rfl

/-- A whole number of more than 53 places becomes the rounded mantissa, whose exponent is small. -/
theorem unpack_ofNat_of_ge {n : Nat} (hge : 2 ^ 53 ≤ n) (hlt : n < 2 ^ 65) : ∃ m e hm,
    roundWithAccuracy Format.binary64 .positive (n * 2 ^ 53) (-53) .exact = .finite .positive m e hm ∧
      (Float.ofNat n).toModel.unpack = .finite .positive m e hm ∧ m.log2 = 52 ∧ e + 51 ≤ n.log2 := by
  have hn : n ≠ 0 := by omega
  have hplaces : n.log2 < 65 := (Nat.log2_lt hn).mpr hlt
  have hlog := log2_mul_two_pow hn 53
  obtain ⟨m, e, hm, hround, hfull, hlow, hhigh⟩ :=
    roundWithAccuracy_eq (m := n * 2 ^ 53) (e := -53) .positive .exact (by omega) (by omega)
  refine ⟨m, e, hm, hround, ?_, hfull, by omega⟩
  rw [ofNat_eq_round hge, hround]
  change unpack _ (pack _ (.finite .positive m e hm)) = _
  rw [unpack_pack .positive hfull (by omega), if_pos (by omega)]

/-- A whole number of up to 64 places is rounded to 53, and its exponent is small. -/
theorem unpack_ofNat_full {n : Nat} (hn : n ≠ 0) (hlt : n < 2 ^ 64) : ∃ m e hm,
    (Float.ofNat n).toModel.unpack = .finite .positive m e hm ∧ m.log2 = 52 ∧ e ≤ 12 := by
  have hplaces : n.log2 < 64 := (Nat.log2_lt hn).mpr hlt
  by_cases hsmall : n < 2 ^ 53
  · obtain ⟨hm, hunpack⟩ := unpack_ofNat hn hsmall
    have hlog := log2_mul_two_pow hn (52 - n.log2)
    have hplaces' : n.log2 < 53 := (Nat.log2_lt hn).mpr hsmall
    exact ⟨_, _, hm, hunpack, by omega, by omega⟩
  · obtain ⟨m, e, hm, -, hunpack, hfull, hhigh⟩ := unpack_ofNat_of_ge (Nat.le_of_not_lt hsmall) (by omega)
    exact ⟨m, e, hm, hunpack, hfull, by omega⟩

/-- The quotient of two full mantissas has the places that rounding needs, 53 places further down. -/
theorem divCore_full {m₁ m₂ : Nat} {e₁ e₂ : Int} (h₁ : m₁.log2 = 52) (h₂ : m₂.log2 = 52) (hlow : -1021 ≤ e₁ - e₂) :
    divCore Format.binary64 m₁ e₁ m₂ e₂ =
      (m₁ * 2 ^ 53 / m₂, e₁ - e₂ - 53, accuracyOfFraction (m₁ * 2 ^ 53 % m₂) m₂) ∧
      52 ≤ (m₁ * 2 ^ 53 / m₂).log2 := by
  have hbounds₁ := (Nat.log2_eq_iff (ne_zero_of_log2_eq h₁)).mp h₁
  have hbounds₂ := (Nat.log2_eq_iff (ne_zero_of_log2_eq h₂)).mp h₂
  have htarget : min (e₁ - e₂) (Format.binary64.targetExponent (totalExponent m₁ e₁ - totalExponent m₂ e₂)) =
      e₁ - e₂ - 53 := by
    change min (e₁ - e₂) (max ((m₁.log2 : Int) + 1 + e₁ - (m₂.log2 + 1 + e₂) - 53) (-1074)) = _
    omega
  have hshift : (e₁ - e₂ - (e₁ - e₂ - 53)).toNat = 53 := by omega
  have hquotient : 2 ^ 52 ≤ m₁ * 2 ^ 53 / m₂ := by
    rw [Nat.le_div_iff_mul_le (Nat.pos_of_ne_zero (ne_zero_of_log2_eq h₂))]
    calc 2 ^ 52 * m₂ ≤ 2 ^ 52 * 2 ^ 53 := Nat.mul_le_mul_left _ (Nat.le_of_lt hbounds₂.2)
      _ ≤ m₁ * 2 ^ 53 := Nat.mul_le_mul_right _ hbounds₁.1
  refine ⟨?_, (Nat.le_log2 (by omega)).mpr hquotient⟩
  simp only [divCore, htarget, hshift, Nat.shiftLeft_eq]

/-- What is at least one stays positive when it is divided by a whole number. -/
theorem div_ofNat_pos {a : Float} {n : Nat} (ha : Float.ofNat 1 ≤ a) (hn : n ≠ 0) (hlt : n < 2 ^ 64) :
    ¬ a / Float.ofNat n ≤ Float.ofNat 0 := by
  obtain ⟨m₂, e₂, h₂, hunpack, hfull₂, hhigh⟩ := unpack_ofNat_full hn hlt
  rw [one_le_iff] at ha
  rw [le_iff]
  change ¬ UnpackedFloat.le (unpack _ (pack _ (UnpackedFloat.div _ _ _))) (.zero .positive) = true
  rw [hunpack]
  generalize a.toModel.unpack = u at ha
  rcases u with (_ | _) | _ | (_ | _) | ⟨_ | _, m₁, e₁, h₁⟩
  case infinity.positive =>
    have hdiv : UnpackedFloat.div Format.binary64 (.infinity .positive) (.finite .positive m₂ e₂ h₂) =
      .infinity .positive := rfl
    rw [hdiv]
    decide
  case finite.positive =>
    obtain ⟨hfull₁, hlow⟩ := ha
    have hgap : -1021 ≤ e₁ - e₂ := by omega
    obtain ⟨hcore, hplaces⟩ := divCore_full hfull₁ hfull₂ hgap
    obtain ⟨m, e, hm, hround, hfull, hge, -⟩ := roundWithAccuracy_eq (e := e₁ - e₂ - 53) (.positive / .positive)
      (accuracyOfFraction (m₁ * 2 ^ 53 % m₂) m₂) hplaces (by omega)
    simp only [UnpackedFloat.div, hcore]
    rw [hround]
    change ¬ UnpackedFloat.le (unpack _ (pack _ (.finite .positive m e hm))) (.zero .positive) = true
    rw [unpack_pack .positive hfull (by omega)]
    split_ifs
    · exact Bool.false_ne_true
    · exact Bool.false_ne_true
  all_goals exact ha.elim

end WholeNumbers

section WholeParts

/-- The whole part of a positive number whose exponent is not positive. -/
theorem roundToInt_positive {m : Nat} {e : Int} (he : e ≤ 0) :
    roundToInt .positive m e = (m / 2 ^ (-e).toNat : Nat) := by
  have hshift : (e - 0).toNat = 0 := by omega
  have hshift' : (0 - (e - ((0 : Nat) : Int))).toNat = (-e).toNat := by omega
  simp only [roundToInt, decreaseExponent, shiftToExponent, hshift, hshift', Sign.apply, mantissa_shiftRight,
    mantissa_ofMantissaAndAccuracy]
  rfl

/-- A bound of the whole part is a bound of the word it is converted to. -/
theorem toNat_toUInt64_le {a : Float} {bound : Nat} (hbound : bound < 2 ^ 64)
    (h : (a.toModel.unpack.toInt 0 (UInt64.size - 1)).toNat ≤ bound) : a.toUInt64.toNat ≤ bound := by
  have hfits : (a.toModel.unpack.toInt 0 (UInt64.size - 1)).toNat < UInt64.size := Nat.lt_of_le_of_lt h hbound
  change (UInt64.ofNatClamp _).toNat ≤ bound
  rw [UInt64.ofNatClamp, dif_pos hfits]
  exact h

/-- What is not above 255 has a whole part of at most 255; it is zero for negative numbers and for not-a-number. -/
theorem toNat_toUInt64_le_of_not_lt {a : Float} (h : ¬ Float.ofNat 255 < a) : a.toUInt64.toNat ≤ 255 := by
  have htop : (Float.ofNat 255).toModel.unpack = .finite .positive (255 * 2 ^ 45) (-45) (by decide) := rfl
  rw [lt_iff, htop] at h
  refine toNat_toUInt64_le (by decide) ?_
  cases hu : a.toModel.unpack with
  | notANumber => exact Nat.zero_le _
  | zero sign => exact Nat.zero_le _
  | infinity sign =>
    rw [hu] at h
    cases sign with
    | negative => exact Nat.zero_le _
    | positive => exact absurd rfl h
  | finite sign m e hm =>
    have hplaces := unpack_finite hu
    have hlog := Nat.log2_eq_iff (k := 52) (Nat.ne_of_gt hm)
    cases sign with
    | negative =>
      have hsign : roundToInt .negative m e ≤ 0 := Int.neg_nonpos_of_nonneg (Int.natCast_nonneg _)
      change (roundToInt .negative m e).toNat ≤ 255
      omega
    | positive =>
      rw [hu] at h
      have horder : e < -45 ∨ e = -45 ∧ m ≤ 255 * 2 ^ 45 := by
        by_contra hnot
        refine h (beq_iff_eq.mpr ?_)
        simp only [UnpackedFloat.compare, Option.some.injEq, Ordering.then_eq_lt, Nat.compare_eq_lt,
          Int.compare_eq_lt, Int.compare_eq_eq]
        omega
      change (roundToInt .positive m e).toNat ≤ 255
      rw [roundToInt_positive (by omega), Int.toNat_natCast]
      rcases horder with hsmall | ⟨rfl, hle⟩
      · have hpow : 2 ^ 46 ≤ 2 ^ (-e).toNat := Nat.pow_le_pow_right (by decide) (by omega)
        have hdiv : m / 2 ^ (-e).toNat ≤ m / 2 ^ 46 := Nat.div_le_div_left hpow (by decide)
        omega
      · change m / 2 ^ 45 ≤ 255
        omega

end WholeParts

end ScannedPage.Floating
