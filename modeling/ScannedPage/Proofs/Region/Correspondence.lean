import Mathlib.Data.Finset.Card
import Mathlib.Order.Interval.Finset.Nat
import ScannedPage.Proofs.Region.Components

/-!
# Components that correspond

Two sets of positions have the same components when the positions of both are joined in both or in neither, and
every component of either holds a position of both (`Connectivity.SameComponents`). The sets may differ in any
other way.

The components of two such masks stand against each other one to one (`oneToOne_labelMask`): a component of one
mask overlaps exactly one of the other. So none is created or deleted on the way from one mask to the other, none
falls apart and no two become one, and there are as many before as after (`Labeling.OneToOne.count_eq`).
-/

namespace ScannedPage

/-- Two sets of positions have the same components. -/
structure Connectivity.SameComponents (c : Connectivity) (S T : Nat × Nat → Prop) : Prop where
  /-- Common positions are joined in both sets or in neither. -/
  joins_iff : ∀ a b, S a → T a → S b → T b → (c.Joins S a b ↔ c.Joins T a b)
  /-- Every component of the first set has a common position. -/
  kept : ∀ a, S a → ∃ b, S b ∧ T b ∧ c.Joins S a b
  /-- Every component of the second set has a common position. -/
  found : ∀ a, T a → ∃ b, S b ∧ T b ∧ c.Joins T a b

/-- To have the same components is a matter of both sets alike. -/
theorem Connectivity.SameComponents.symm {c : Connectivity} {S T : Nat × Nat → Prop} (h : c.SameComponents S T) :
    c.SameComponents T S where
  joins_iff a b hTa hSa hTb hSb := (h.joins_iff a b hSa hTa hSb hTb).symm
  kept a ha := (h.found a ha).imp fun _ hb => ⟨hb.2.1, hb.1, hb.2.2⟩
  found a ha := (h.kept a ha).imp fun _ hb => ⟨hb.2.1, hb.1, hb.2.2⟩

namespace Region

namespace Labeling

/-- A component of one labelling and a component of another have a position in common. -/
def Overlap (l l' : Labeling) (i j : Nat) : Prop :=
  i ∈ Finset.Icc 1 l.count ∧ j ∈ Finset.Icc 1 l'.count ∧ ∃ q : Nat × Nat, l.labelAt q.1 q.2 = i ∧
    l'.labelAt q.1 q.2 = j

/-- Every component of each labelling overlaps exactly one component of the other. -/
structure OneToOne (l l' : Labeling) : Prop where
  kept : ∀ i ∈ Finset.Icc 1 l.count, ∃! j, l.Overlap l' i j
  found : ∀ j ∈ Finset.Icc 1 l'.count, ∃! i, l.Overlap l' i j

variable {l l' : Labeling}

/-- Overlaps are seen from both sides. -/
theorem overlap_comm (l l' : Labeling) {i j : Nat} : l.Overlap l' i j ↔ l'.Overlap l j i :=
  ⟨fun ⟨hi, hj, q, hqi, hqj⟩ => ⟨hj, hi, q, hqj, hqi⟩, fun ⟨hj, hi, q, hqj, hqi⟩ => ⟨hi, hj, q, hqi, hqj⟩⟩

/-- A correspondence of components is one to one from either side. -/
theorem OneToOne.symm (h : l.OneToOne l') : l'.OneToOne l where
  kept := by simpa only [overlap_comm l l'] using h.found
  found := by simpa only [overlap_comm l l'] using h.kept

/-- Of two labellings that correspond one to one, neither has more components than the other. -/
theorem OneToOne.count_le (h : l.OneToOne l') : l.count ≤ l'.count := by
  -- each component goes to one that it overlaps, and no two go to the same
  choose! f hf using fun i hi => (h.kept i hi).exists
  have hinj : Set.InjOn f (Finset.Icc 1 l.count) := fun i hi i' hi' heq =>
    (h.found (f i) (hf i hi).2.1).unique (hf i hi) (heq ▸ hf i' hi')
  have hcard := Finset.card_le_card_of_injOn f (fun i hi => (hf i hi).2.1) hinj
  simpa only [Nat.card_Icc, Nat.add_sub_cancel] using hcard

/-- Labellings that correspond one to one have equally many components. -/
theorem OneToOne.count_eq (h : l.OneToOne l') : l.count = l'.count := Nat.le_antisymm h.count_le h.symm.count_le

end Labeling

section Masks

variable {m m' : Mask} {c : Connectivity}

/-- A label in use stands on selected positions only. -/
theorem selects_of_labelAt {q : Nat × Nat}
    (h : (labelMask m c).labelAt q.1 q.2 ∈ Finset.Icc 1 (labelMask m c).count) :
    m.Selects q := by
  by_contra hnot
  rw [(labelAt_labelMask_eq_zero_iff m c _ _).mpr hnot] at h
  exact absurd (Finset.mem_Icc.mp h).1 (by decide)

/-- The number of a component is in use. -/
theorem labelAt_mem_Icc {q : Nat × Nat} (h : m.Selects q) :
    (labelMask m c).labelAt q.1 q.2 ∈ Finset.Icc 1 (labelMask m c).count :=
  Finset.mem_Icc.mpr ((labelAt_labelMask_used_iff m c _).mp ⟨q, h, rfl⟩)

/-- A component overlaps exactly one component of a mask with the same components. -/
theorem existsUnique_overlap (h : c.SameComponents m.Selects m'.Selects) {i : Nat}
    (hi : i ∈ Finset.Icc 1 (labelMask m c).count) : ∃! j, (labelMask m c).Overlap (labelMask m' c) i j := by
  obtain ⟨a, ha, rfl⟩ := (labelAt_labelMask_used_iff m c i).mpr (Finset.mem_Icc.mp hi)
  obtain ⟨b, hb, hb', hab⟩ := h.kept a ha
  have hlabel := (labelAt_labelMask_eq_iff m c ha hb).mpr hab
  refine ⟨(labelMask m' c).labelAt b.1 b.2, ⟨hi, labelAt_mem_Icc hb', b, hlabel.symm, rfl⟩, ?_⟩
  rintro j ⟨_, hj, q, hqi, rfl⟩
  have hq : m.Selects q := selects_of_labelAt (hqi ▸ hi)
  have hq' : m'.Selects q := selects_of_labelAt hj
  have hjoins := (labelAt_labelMask_eq_iff m c hq hb).mp (hqi.trans hlabel)
  exact (labelAt_labelMask_eq_iff m' c hq' hb').mpr ((h.joins_iff q b hq hq' hb hb').mp hjoins)

/-- The components of masks with the same components correspond one to one. -/
theorem oneToOne_labelMask (h : c.SameComponents m.Selects m'.Selects) :
    (labelMask m c).OneToOne (labelMask m' c) where
  kept _ hi := existsUnique_overlap h hi
  found j hj := by
    simpa only [Labeling.overlap_comm (labelMask m c)] using existsUnique_overlap h.symm hj

end Masks

end Region

end ScannedPage
