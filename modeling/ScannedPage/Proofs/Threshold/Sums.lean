import Mathlib.Algebra.BigOperators.Intervals
import Mathlib.Algebra.BigOperators.Ring.Finset
import Mathlib.Algebra.Order.BigOperators.Group.Finset
import Mathlib.Data.Finset.Prod
import Mathlib.Tactic.Ring
import ScannedPage.Proofs.Exact
import ScannedPage.Proofs.Grid
import ScannedPage.Threshold.LocalStats

/-!
# Tables of sums

In exact arithmetic the entry of a table at a corner of the pixel grid is the sum of the summands over the
rectangle from the origin to this corner (`isTable_sumTable`): a row is appended below the rows so far, each new
entry being the entry above it and the sum of the row up to there, behind an entry of zero. The sum over any other
rectangle is the alternating sum of the entries at its corners (`IsTable.rectSum_eq`), all of which the table holds
(`IsTable.lookup_lt`).
-/

namespace ScannedPage.Threshold

open Finset

/-- The positions of the half-open rectangle `[x0, x1) × [y0, y1)`. -/
def cells (x0 y0 x1 y1 : Nat) : Finset (Nat × Nat) := Ico x0 x1 ×ˢ Ico y0 y1

/-- A rectangle has as many positions as its area says. -/
theorem card_cells (x0 y0 x1 y1 : Nat) : (cells x0 y0 x1 y1).card = (x1 - x0) * (y1 - y0) := by
  rw [cells, card_product, Nat.card_Ico, Nat.card_Ico]

/-- A rectangle with both sides is not empty. -/
theorem card_cells_pos {x0 y0 x1 y1 : Nat} (hx : x0 < x1) (hy : y0 < y1) : 0 < (cells x0 y0 x1 y1).card := by
  rw [card_cells]
  exact Nat.mul_pos (Nat.sub_pos_of_lt hx) (Nat.sub_pos_of_lt hy)

/-- The sum over the rectangle from the origin to a corner. -/
def cornerSum (value : Nat → Nat → ℚ) (x y : Nat) : ℚ := ∑ j ∈ range y, ∑ i ∈ range x, value i j

/-- One row more adds its sum. -/
theorem cornerSum_succ (value : Nat → Nat → ℚ) (x y : Nat) :
    cornerSum value x (y + 1) = cornerSum value x y + ∑ i ∈ range x, value i y := sum_range_succ ..

/-- A rectangle without columns has the sum zero. -/
theorem cornerSum_zero (value : Nat → Nat → ℚ) (y : Nat) : cornerSum value 0 y = 0 := sum_eq_zero fun _ _ => rfl

/-- The sum over a rectangle is the alternating sum at its corners. -/
theorem sum_cells_eq_cornerSum (value : Nat → Nat → ℚ) {x0 y0 x1 y1 : Nat} (hx : x0 ≤ x1) (hy : y0 ≤ y1) :
    ∑ p ∈ cells x0 y0 x1 y1, value p.1 p.2 =
      cornerSum value x1 y1 - cornerSum value x1 y0 - cornerSum value x0 y1 + cornerSum value x0 y0 := by
  have hrows : ∑ p ∈ cells x0 y0 x1 y1, value p.1 p.2 =
      ∑ j ∈ Ico y0 y1, (∑ i ∈ range x1, value i j - ∑ i ∈ range x0, value i j) := by
    rw [cells, sum_product_right]
    exact sum_congr rfl fun j _ => sum_Ico_eq_sub _ hx
  rw [hrows, sum_sub_distrib, sum_Ico_eq_sub _ hy, sum_Ico_eq_sub _ hy]
  simp only [cornerSum]
  ring

/-- What a grown array reads. -/
theorem getD_push (values : Array ℚ) (value : ℚ) (i : Nat) :
    (values.push value).getD i 0 = if i = values.size then value else values.getD i 0 := by
  simp only [Array.getD_eq_getD_getElem?, Array.getElem?_push]
  split <;> rfl

/-- A corner lies in the table of the rows down to it. -/
theorem corner_lt {width rows x y : Nat} (hx : x ≤ width) (hy : y ≤ rows) :
    y * (width + 1) + x < (rows + 1) * (width + 1) := by
  have hrows : (y + 1) * (width + 1) ≤ (rows + 1) * (width + 1) := Nat.mul_le_mul_right _ (Nat.succ_le_succ hy)
  rw [Nat.add_mul, Nat.one_mul] at hrows
  omega

variable {width : Nat} {value : Nat → Nat → ℚ}

/-- The table of the first rows: one entry per corner, with the sum over the rectangle from the origin. -/
structure IsTable (width : Nat) (value : Nat → Nat → ℚ) (rows : Nat) (table : Array ℚ) : Prop where
  size_eq : table.size = (rows + 1) * (width + 1)
  entry_eq : ∀ {x y}, x ≤ width → y ≤ rows → table.getD (y * (width + 1) + x) 0 = cornerSum value x y

/-- The first corners of a new row stand below a table, and the sum of the row is known up to the last of them. -/
structure RowBelow (value : Nat → Nat → ℚ) (y : Nat) (table : Array ℚ) (n : Nat) (state : Array ℚ × ℚ) : Prop where
  size_eq : state.1.size = table.size + 1 + n
  rowSum_eq : state.2 = ∑ i ∈ range n, value i y
  above_eq : ∀ i < table.size, state.1.getD i 0 = table.getD i 0
  entry_eq : ∀ x ≤ n, state.1.getD (table.size + x) 0 = cornerSum value x (y + 1)

namespace RowBelow

variable {y : Nat} {table : Array ℚ}

/-- The row begins with zero. -/
theorem start : RowBelow value y table 0 (table.push 0, 0) where
  size_eq := Array.size_push ..
  rowSum_eq := rfl
  above_eq i hi := by rw [getD_push, if_neg (Nat.ne_of_lt hi)]
  entry_eq x hx := by rw [Nat.le_zero.mp hx, Nat.add_zero, getD_push, if_pos rfl, cornerSum_zero]

/-- One corner more is the corner above it and the sum of the row up to it. -/
theorem next {n : Nat} {state : Array ℚ × ℚ} (htable : IsTable width value y table) (hn : n < width)
    (h : RowBelow value y table n state) :
    RowBelow value y table (n + 1)
      (state.1.push (state.1.getD (y * (width + 1) + n + 1) 0 + (state.2 + value n y)), state.2 + value n y) := by
  have hrowSum : state.2 + value n y = ∑ i ∈ range (n + 1), value i y := by rw [sum_range_succ, h.rowSum_eq]
  have habove : state.1.getD (y * (width + 1) + n + 1) 0 = cornerSum value (n + 1) y := by
    rw [Nat.add_assoc, h.above_eq _ (htable.size_eq ▸ corner_lt hn le_rfl), htable.entry_eq hn le_rfl]
  refine ⟨?_, hrowSum, fun i hi => ?_, fun x hx => ?_⟩
  · rw [Array.size_push, h.size_eq, Nat.add_assoc]
  · rw [getD_push, if_neg (by rw [h.size_eq]; omega), h.above_eq i hi]
  · rw [getD_push, h.size_eq]
    rcases Nat.le_succ_iff.mp hx with hold | rfl
    · rw [if_neg (by omega), h.entry_eq x hold]
    · rw [if_pos (by omega), habove, hrowSum, cornerSum_succ]

end RowBelow

section Exact

variable [Transcendentals]

/-- An appended row is complete. -/
theorem exists_rowBelow {y : Nat} {table : Array ℚ} (h : IsTable width value y table) :
    ∃ state, RowBelow value y table width state ∧ state.1 = appendRow width (fun x => value x y) y table :=
  ⟨_, scan_induction width _ _ (RowBelow value y table) RowBelow.start fun _ hn _ hstate => hstate.next h hn, rfl⟩

/-- A table with one more row appended is the table of one more row. -/
theorem isTable_appendRow {y : Nat} {table : Array ℚ} (h : IsTable width value y table) :
    IsTable width value (y + 1) (appendRow width (fun x => value x y) y table) := by
  obtain ⟨state, hrow, hstate⟩ := exists_rowBelow h
  rw [← hstate]
  refine ⟨?_, fun {x j} hx hj => ?_⟩
  · rw [hrow.size_eq, h.size_eq, Nat.add_mul (y + 1) 1, Nat.one_mul, Nat.add_assoc, Nat.add_comm 1]
  · rcases Nat.le_succ_iff.mp hj with hold | rfl
    · rw [hrow.above_eq _ (h.size_eq ▸ corner_lt hx hold), h.entry_eq hx hold]
    · rw [← h.size_eq, hrow.entry_eq x hx]

/-- A table of sums holds the sum over the rectangle from the origin to each corner. -/
theorem isTable_sumTable (s : Size) (value : Nat → Nat → ℚ) :
    IsTable s.width value s.height (sumTable s value) := by
  refine scan_induction s.height _ _ (IsTable s.width value) ⟨?_, fun {x y} hx hy => ?_⟩ fun y _ _ h =>
    isTable_appendRow h
  · rw [Array.size_replicate, Nat.zero_add, Nat.one_mul]
  · rw [Nat.le_zero.mp hy, Nat.zero_mul, Nat.zero_add, Array.getD_eq_getD_getElem?, Array.getElem?_replicate,
      if_pos (Nat.lt_succ_of_le hx)]
    rfl

end Exact

namespace IsTable

variable {rows : Nat} {table : Array ℚ} {x y x0 y0 x1 y1 : Nat}

/-- The table holds every corner of the rows down to the last. -/
theorem lookup_lt (h : IsTable width value rows table) (hx : x ≤ width) (hy : y ≤ rows) :
    y * (width + 1) + x < table.size := h.size_eq ▸ corner_lt hx hy

/-- Every entry of a table is the entry at a corner. -/
theorem exists_corner (h : IsTable width value rows table) {entry : ℚ} (hentry : entry ∈ table) :
    ∃ x ≤ width, ∃ y ≤ rows, entry = cornerSum value x y := by
  obtain ⟨i, hi, rfl⟩ := Array.mem_iff_getElem.mp hentry
  have hx : i % (width + 1) ≤ width := Nat.le_of_lt_succ (Nat.mod_lt _ (Nat.succ_pos width))
  have hy : i / (width + 1) ≤ rows := by
    refine Nat.le_of_lt_succ (Nat.div_lt_of_lt_mul ?_)
    rw [Nat.mul_comm, ← h.size_eq]
    exact hi
  refine ⟨_, hx, _, hy, ?_⟩
  rw [← h.entry_eq hx hy, Nat.mul_comm, Nat.div_add_mod, Array.getD_eq_getD_getElem?, Array.getElem?_eq_getElem hi,
    Option.getD_some]

/-- A table of natural numbers holds natural numbers, none above the area times the greatest of the summands. -/
theorem entry_le {summand : Nat → Nat → Nat} {bound : Nat}
    (h : IsTable width (fun x y => (summand x y : ℚ)) rows table) (hbound : ∀ x y, summand x y ≤ bound) {entry : ℚ}
    (hentry : entry ∈ table) : ∃ n : Nat, n ≤ width * rows * bound ∧ entry = n := by
  obtain ⟨x, hx, y, hy, rfl⟩ := h.exists_corner hentry
  refine ⟨∑ j ∈ range y, ∑ i ∈ range x, summand i j, ?_, by simp only [cornerSum, Nat.cast_sum]⟩
  calc ∑ j ∈ range y, ∑ i ∈ range x, summand i j
      ≤ ∑ _j ∈ range y, ∑ _i ∈ range x, bound := sum_le_sum fun j _ => sum_le_sum fun i _ => hbound i j
    _ = x * y * bound := by simp only [sum_const, card_range, nsmul_eq_mul, Nat.cast_id]; ring
    _ ≤ width * rows * bound := Nat.mul_le_mul_right _ (Nat.mul_le_mul hx hy)

/-- Four look-ups give the sum over a rectangle. -/
theorem rectSum_eq [Transcendentals] (h : IsTable width value rows table) (hx : x0 ≤ x1) (hx1 : x1 ≤ width)
    (hy : y0 ≤ y1) (hy1 : y1 ≤ rows) :
    SumTables.rectSum table (width + 1) x0 y0 x1 y1 = ∑ p ∈ cells x0 y0 x1 y1, value p.1 p.2 := by
  rw [sum_cells_eq_cornerSum value hx hy, ← h.entry_eq hx1 hy1, ← h.entry_eq hx1 (hy.trans hy1),
    ← h.entry_eq (hx.trans hx1) hy1, ← h.entry_eq (hx.trans hx1) (hy.trans hy1)]
  rfl

end IsTable

end ScannedPage.Threshold
