import Mathlib.Logic.Relation
import ScannedPage.Connectivity
import ScannedPage.Proofs.Grid

/-!
# Paths between pixels

Two positions of a set are joined when a path leads from one to the other, all of whose positions
belong to the set and each of which is a neighbour of the one before. One more position joins exactly
what touches it (`joins_insert_iff`). The neighbours that a raster scan has passed before it reaches a
position are those at the causal steps (`exists_causal_step_iff`).
-/

namespace ScannedPage

namespace Connectivity

/-- Two positions are neighbours when one of the steps leads from the first to the second. -/
def Neighbours (c : Connectivity) (p q : Nat × Nat) : Prop := ((q.1 : Int) - p.1, (q.2 : Int) - p.2) ∈ c.offsets

/-- Whether positions are neighbours can be computed. -/
instance (c : Connectivity) (p q : Nat × Nat) : Decidable (c.Neighbours p q) :=
  inferInstanceAs (Decidable (_ ∈ c.offsets))

/-- Every step can be taken back. -/
theorem neg_mem_offsets (c : Connectivity) : ∀ d ∈ c.offsets, (-d.1, -d.2) ∈ c.offsets := by
  cases c <;> decide

/-- The causal steps are those that lead upward, or to the left in the same row. -/
theorem mem_causalOffsets_iff (c : Connectivity) (d : Int × Int) :
    d ∈ c.causalOffsets ↔ d ∈ c.offsets ∧ (d.2 < 0 ∨ d.2 = 0 ∧ d.1 < 0) := by
  have hcausal : ∀ e ∈ c.causalOffsets, e ∈ c.offsets ∧ (e.2 < 0 ∨ e.2 = 0 ∧ e.1 < 0) := by
    cases c <;> decide
  have hback : ∀ e ∈ c.offsets, e.2 < 0 ∨ e.2 = 0 ∧ e.1 < 0 → e ∈ c.causalOffsets := by
    cases c <;> decide
  exact ⟨hcausal d, fun h => hback d h.1 h.2⟩

/-- A neighbour of a position has that position as its neighbour. -/
theorem Neighbours.symm {c : Connectivity} {p q : Nat × Nat} (h : c.Neighbours p q) : c.Neighbours q p := by
  have hneg := c.neg_mem_offsets _ h
  simpa only [Neighbours, Int.neg_sub] using hneg

/-- Neighbours within a set of positions. -/
def Linked (c : Connectivity) (S : Nat × Nat → Prop) (p q : Nat × Nat) : Prop := S p ∧ S q ∧ c.Neighbours p q

/-- A path within a set leads from one position to another. -/
def Joins (c : Connectivity) (S : Nat × Nat → Prop) : Nat × Nat → Nat × Nat → Prop :=
  Relation.ReflTransGen (c.Linked S)

variable {c : Connectivity} {S T : Nat × Nat → Prop} {p a b : Nat × Nat}

/-- Paths can be walked backwards. -/
theorem Joins.symm (h : c.Joins S a b) : c.Joins S b a := by
  induction h with
  | refl => exact .refl
  | tail _ hlink ih => exact ih.head ⟨hlink.2.1, hlink.1, hlink.2.2.symm⟩

/-- A path within a set is a path within every greater set. -/
theorem Joins.mono (hST : ∀ q, S q → T q) (h : c.Joins S a b) : c.Joins T a b :=
  have hlinked : c.Linked S ≤ c.Linked T := fun _ _ hl => ⟨hST _ hl.1, hST _ hl.2.1, hl.2.2⟩
  Relation.ReflTransGen.mono hlinked _ _ h

/-- Paths depend on the set alone. -/
theorem joins_congr (hST : ∀ q, S q ↔ T q) : c.Joins S a b ↔ c.Joins T a b :=
  ⟨Joins.mono fun q => (hST q).mp, Joins.mono fun q => (hST q).mpr⟩

/-- A path to a position outside of the set has no step. -/
theorem Joins.eq_of_not_mem (h : c.Joins S a b) (hb : ¬ S b) : a = b := by
  rcases Relation.ReflTransGen.cases_tail h with heq | ⟨q, _, hq⟩
  · exact heq.symm
  · exact absurd hq.2.1 hb

/-- A position is a given one or is joined to one of its neighbours. -/
def Touches (c : Connectivity) (S : Nat × Nat → Prop) (p a : Nat × Nat) : Prop :=
  a = p ∨ ∃ q, S q ∧ c.Neighbours q p ∧ c.Joins S a q

/-- What touches a position is joined to it once it belongs to the set. -/
theorem Touches.joins (ha : S a ∨ a = p) (h : c.Touches S p a) : c.Joins (fun q => S q ∨ q = p) a p := by
  rcases h with rfl | ⟨q, hq, hn, hj⟩
  · exact .refl
  · exact (hj.mono fun _ => Or.inl).tail ⟨Or.inl hq, Or.inr rfl, hn⟩

/-- One step further from a position of the set still touches. -/
theorem Touches.step (hp : ¬ S p) (h : c.Touches S p a) (hab : c.Linked S a b) : c.Touches S p b := by
  rcases h with rfl | ⟨q, hq, hn, hj⟩
  · exact absurd hab.1 hp
  · exact Or.inr ⟨q, hq, hn, hj.head ⟨hab.2.1, hab.1, hab.2.2.symm⟩⟩

/-- One more position joins exactly the positions that touch it, and leaves the other paths as they were. -/
theorem joins_insert_iff (hp : ¬ S p) (ha : S a ∨ a = p) (hb : S b ∨ b = p) :
    c.Joins (fun q => S q ∨ q = p) a b ↔ c.Joins S a b ∨ c.Touches S p a ∧ c.Touches S p b := by
  constructor
  · intro h
    clear hb
    induction h with
    | refl => exact Or.inl .refl
    | @tail b b' _ hlink ih =>
      obtain ⟨hb, hb', hn⟩ := hlink
      rcases hb with hb | rfl
      · rcases hb' with hb' | rfl
        · -- the step stays within the set
          rcases ih with hj | ⟨hta, htb⟩
          · exact Or.inl (hj.tail ⟨hb, hb', hn⟩)
          · exact Or.inr ⟨hta, htb.step hp ⟨hb, hb', hn⟩⟩
        · -- the step leads to the new position
          rcases ih with hj | ⟨hta, _⟩
          · exact Or.inr ⟨Or.inr ⟨b, hb, hn, hj⟩, Or.inl rfl⟩
          · exact Or.inr ⟨hta, Or.inl rfl⟩
      · -- the step leads away from the new position
        have hta : c.Touches S b a := by
          rcases ih with hj | ⟨hta, _⟩
          · exact Or.inl (hj.eq_of_not_mem hp)
          · exact hta
        rcases hb' with hb' | rfl
        · exact Or.inr ⟨hta, Or.inr ⟨b', hb', hn.symm, .refl⟩⟩
        · exact Or.inr ⟨hta, Or.inl rfl⟩
  · rintro (hj | ⟨hta, htb⟩)
    · exact hj.mono fun _ => Or.inl
    · exact (hta.joins ha).trans (htb.joins hb).symm

end Connectivity

/-- A step leads to a position exactly when that lies inside and the step is the difference. -/
theorem Size.step?_eq_some_iff {s : Size} {x y : Nat} {d : Int × Int} {q : Nat × Nat} :
    s.step? x y d = some q ↔ s.Contains q.1 q.2 ∧ d = ((q.1 : Int) - x, (q.2 : Int) - y) := by
  obtain ⟨x', y'⟩ := q
  obtain ⟨dx, dy⟩ := d
  simp only [step?, Contains, Prod.mk.injEq]
  split
  · simp only [Option.some.injEq, Prod.mk.injEq]
    omega
  · simp only [reduceCtorEq, false_iff]
    omega

/-- The causal steps lead to the neighbours that a scan passes before the position itself. -/
theorem Connectivity.exists_causal_step_iff (c : Connectivity) {s : Size} {x y : Nat} (hxy : s.Contains x y)
    {q : Nat × Nat} : (∃ d ∈ c.causalOffsets, s.step? x y d = some q) ↔
      s.Contains q.1 q.2 ∧ c.Neighbours (x, y) q ∧ s.index q.1 q.2 < s.index x y := by
  have hrow : ((q.2 : Int) - y < 0 ∨ (q.2 : Int) - y = 0 ∧ (q.1 : Int) - x < 0) ↔
      q.2 < y ∨ q.2 = y ∧ q.1 < x := by omega
  constructor
  · rintro ⟨d, hd, hstep⟩
    obtain ⟨hq, rfl⟩ := Size.step?_eq_some_iff.mp hstep
    obtain ⟨hn, hlt⟩ := (c.mem_causalOffsets_iff _).mp hd
    exact ⟨hq, hn, (Size.index_lt_index_iff hq.1 hxy.1).mpr (hrow.mp hlt)⟩
  · rintro ⟨hq, hn, hlt⟩
    have hlt := hrow.mpr ((Size.index_lt_index_iff hq.1 hxy.1).mp hlt)
    exact ⟨_, (c.mem_causalOffsets_iff _).mpr ⟨hn, hlt⟩, Size.step?_eq_some_iff.mpr ⟨hq, rfl⟩⟩

end ScannedPage
