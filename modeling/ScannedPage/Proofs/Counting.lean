import Mathlib.Algebra.BigOperators.Group.Finset.Piecewise
import Mathlib.Data.Finset.Prod
import Mathlib.Data.Nat.Count
import ScannedPage.Proofs.Raster

/-!
# Counting positions

The positions of a size form a finite set, and a scan visits each of them once (`Size.sum_positions`). A grid has
as many cells with a property as there are positions at which such a cell is read (`Grid.countP_cells`), so counts
over the data of an image become sizes of sets of positions.
-/

namespace ScannedPage

namespace Size

/-- The positions of a size. -/
def positions (s : Size) : Finset (Nat × Nat) := Finset.range s.width ×ˢ Finset.range s.height

/-- The positions of a size are those that lie inside. -/
theorem mem_positions {s : Size} {p : Nat × Nat} : p ∈ s.positions ↔ s.Contains p.1 p.2 := by
  rw [positions, Finset.mem_product, Finset.mem_range, Finset.mem_range, Size.Contains]

/-- A size has as many positions as its area says. -/
theorem card_positions (s : Size) : s.positions.card = s.area := by
  rw [positions, Finset.card_product, Finset.card_range, Finset.card_range, Size.area]

/-- A sum over the positions is a sum along the scan. -/
theorem sum_positions {M : Type*} [AddCommMonoid M] (s : Size) (f : Nat × Nat → M) :
    ∑ p ∈ s.positions, f p = ∑ i ∈ Finset.range s.area, f (i % s.width, i / s.width) := by
  refine Finset.sum_nbij' (fun p => s.index p.1 p.2) (fun i => (i % s.width, i / s.width)) ?_ ?_ ?_ ?_ ?_
  · exact fun p hp => Finset.mem_range.mpr (index_lt (mem_positions.mp hp))
  · exact fun i hi => mem_positions.mpr (contains_mod_div (Finset.mem_range.mp hi))
  · intro p hp
    have hx := (mem_positions.mp hp).1
    exact Prod.ext (index_mod hx) (index_div hx)
  · exact fun i _ => s.index_mod_div i
  · intro p hp
    have hx := (mem_positions.mp hp).1
    rw [index_mod hx, index_div hx]

/-- The scan meets as many positions with a property as there are. -/
theorem count_scan (s : Size) (P : Nat × Nat → Prop) [DecidablePred P] :
    Nat.count (fun i => P (i % s.width, i / s.width)) s.area = (s.positions.filter P).card := by
  rw [Nat.count_eq_card_filter_range, Finset.card_filter, Finset.card_filter, sum_positions]

end Size

variable {α : Type*}

/-- A count that goes up at every element with a property counts the elements that have it. -/
theorem foldl_count_eq_countP (P : α → Bool) (values : List α) (start : Nat) :
    values.foldl (fun n v => if P v then n + 1 else n) start = start + values.countP P := by
  induction values generalizing start with
  | nil => rfl
  | cons v values ih =>
    rw [List.foldl_cons, ih, List.countP_cons]
    split <;> omega

namespace Grid

/-- The cells of a grid in the order of a scan. -/
theorem toList_cells (g : Grid α) (outside : α) : g.cells.toList =
    (List.range g.size.area).map fun i => g.getD (i % g.size.width) (i / g.size.width) outside := by
  refine List.ext_getElem (by simp [g.size_cells]) fun i hi _ => ?_
  have harea : i < g.size.area := by
    rw [← g.size_cells]
    simpa using hi
  have hin := Size.contains_mod_div harea
  have hcell : i < g.cells.size := by simpa using hi
  simp [getD, get?, hin, Size.index_mod_div, hcell]

/-- As many cells have a property as there are positions at which such a cell is read. -/
theorem countP_cells (g : Grid α) (P : α → Bool) (outside : α) : g.cells.countP P =
    (g.size.positions.filter fun q => P (g.getD q.1 q.2 outside) = true).card := by
  rw [← g.size.count_scan, Nat.count, ← Array.countP_toList, g.toList_cells outside, List.countP_map]
  simp only [Function.comp_def, Bool.decide_eq_true]

end Grid

/-- A raster has as many words other than zero as it has black pixels. -/
theorem Raster.countP_words (r : Raster) : r.words.countP (· != 0) = (r.size.positions.filter r.IsBlack).card := by
  rw [words, Grid.countP_cells _ _ 0]
  simp only [bne_iff_ne]
  rfl

end ScannedPage
