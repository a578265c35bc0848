import Mathlib.Tactic.Common

/-!
# Whole numbers in words

Numbers are kept in words of 8, 32 or 64 bits, with a sign or without. A sum that does not fit its word is a fault
(`int32?`). A change to another kind of word is none, but keeps the bits only: a side of half the range or more
becomes negative (`toInt32`), and a negative number a huge address (`toAddress`). A loop counts from one number up
to another and does nothing if that is smaller (`intRange`).
-/

namespace ScannedPage

/-- The number fits 32 bits with a sign. -/
def IsInt32 (i : Int) : Prop := -2147483648 ≤ i ∧ i ≤ 2147483647

/-- The number fits 32 bits without a sign. -/
def IsNat32 (n : Nat) : Prop := n ≤ 4294967295

/-- The number fits 8 bits without a sign. -/
def IsNat8 (n : Nat) : Prop := n ≤ 255

instance (i : Int) : Decidable (IsInt32 i) := inferInstanceAs (Decidable (_ ∧ _))

instance (n : Nat) : Decidable (IsNat32 n) := inferInstanceAs (Decidable (_ ≤ _))

instance (n : Nat) : Decidable (IsNat8 n) := inferInstanceAs (Decidable (_ ≤ _))

/-- The result of an operation on 32 bits with a sign, if it fits. -/
def int32? (i : Int) : Option Int := if IsInt32 i then some i else none

/-- The 32 bits of a number read with a sign. -/
def toInt32 (n : Nat) : Int := (n : Int).bmod 4294967296

/-- The bits of a number with a sign, extended to the 64 bits of an address. -/
def toAddress (i : Int) : Nat := (i % 18446744073709551616).toNat

/-- The whole numbers from one up to another, without that. -/
def intRange (first last : Int) : List Int :=
  (List.range (last - first).toNat).map fun i : Nat => first + (i : Int)

/-- A result that fits is no fault. -/
theorem int32?_eq_some {i : Int} (h : IsInt32 i) : int32? i = some i := if_pos h

/-- A result that does not fit is a fault. -/
theorem int32?_eq_none {i : Int} (h : ¬ IsInt32 i) : int32? i = none := if_neg h

/-- In the lower half of the range a number stays as it is. -/
theorem toInt32_eq {n : Nat} (h : n < 2147483648) : toInt32 n = n :=
  Int.bmod_eq_of_le (by omega) (by omega)

/-- A number that the whole range separates from a negative one becomes that. -/
theorem toInt32_eq_of_add {n : Nat} {i : Int} (h : (n : Int) = i + 4294967296) (hi : IsInt32 i) :
    toInt32 n = i := by
  simp only [IsInt32] at hi
  have hbits : (i + 4294967296).bmod 4294967296 = i :=
    (Int.add_bmod_right i 4294967296).trans (Int.bmod_eq_of_le (by omega) (by omega))
  exact (congrArg (Int.bmod · 4294967296) h).trans hbits

/-- In the upper half of the range a number becomes negative. -/
theorem toInt32_neg {n : Nat} (h : 2147483648 ≤ n) (hn : IsNat32 n) : toInt32 n < 0 := by
  simp only [IsNat32] at hn
  have hfits : IsInt32 (n - 4294967296) := by
    simp only [IsInt32]
    omega
  rw [toInt32_eq_of_add (by omega) hfits]
  omega

/-- An address keeps a number that is not negative. -/
theorem toAddress_natCast {n : Nat} (h : n < 18446744073709551616) : toAddress n = n := by
  simp only [toAddress]
  omega

/-- A loop passes the numbers between its ends. -/
theorem mem_intRange_iff {first last i : Int} : i ∈ intRange first last ↔ first ≤ i ∧ i < last := by
  simp only [intRange, List.mem_map, List.mem_range]
  constructor
  · rintro ⟨n, hn, rfl⟩
    omega
  · rintro ⟨hfirst, hlast⟩
    exact ⟨(i - first).toNat, by omega, by omega⟩

/-- A loop whose end is not above its beginning passes no number. -/
theorem intRange_eq_nil {first last : Int} (h : last ≤ first) : intRange first last = [] := by
  rw [intRange, Int.toNat_of_nonpos (by omega)]
  rfl

/-- A loop from zero counts the rounds. -/
theorem intRange_zero (n : Nat) : intRange 0 n = (List.range n).map fun i : Nat => (i : Int) := by
  simp only [intRange, Int.sub_zero, Int.toNat_natCast, Int.zero_add]

end ScannedPage
