import ScannedPage.Connectivity
import ScannedPage.Proofs.Grid
import ScannedPage.Proofs.Words

/-!
# Scans in words

A scan passes an image row by row, counts in words of 32 bits with a sign, and finds every pixel at a place in one
array that it computes in such words (`Size.place?`). An image fits if its sides and the places of all its pixels
do (`Size.FitsInt32`). There a scan with places does what the plain scan over all positions does, in either
direction (`foldlM_scanOrder`, `foldlM_scanOrder_reverse`).

Beyond that a scan fails in one of two ways. If the sides still fit, the place of some pixel does not, and the scan
ends with a fault (`foldlM_scanOrder_eq_none`). A side of half the range or more counts as negative, and the scan
passes no pixel at all (`scanOrder_eq_nil`).
-/

namespace ScannedPage

/-- A loop with a round that is always a fault ends with a fault. -/
theorem foldlM_eq_none_of_mem {α β : Type*} {l : List α} {f : β → α → Option β} {a : α} (ha : a ∈ l)
    (hf : ∀ b, f b a = none) (b : β) : l.foldlM f b = none := by
  induction l generalizing b with
  | nil => exact absurd ha List.not_mem_nil
  | cons a' l ih =>
    rw [List.foldlM_cons]
    rcases List.mem_cons.mp ha with rfl | hmem
    · rw [hf]
      rfl
    · cases f b a' with
      | none => rfl
      | some b' => exact ih hmem b'

/-- A step leads to the same row or column or to one beside it. -/
def IsUnitStep (d : Int × Int) : Prop := (-1 ≤ d.1 ∧ d.1 ≤ 1) ∧ -1 ≤ d.2 ∧ d.2 ≤ 1

instance (d : Int × Int) : Decidable (IsUnitStep d) := inferInstanceAs (Decidable (_ ∧ _))

/-- The steps to neighbours already passed lead no further than one row or column. -/
theorem Connectivity.isUnitStep_causalOffsets (c : Connectivity) : ∀ d ∈ c.causalOffsets, IsUnitStep d := by
  cases c <;> decide

/-- The steps to neighbours not reached yet lead no further than one row or column. -/
theorem Connectivity.isUnitStep_anticausalOffsets (c : Connectivity) :
    ∀ d ∈ c.anticausalOffsets, IsUnitStep d := by
  cases c <;> decide

namespace Size

variable {s : Size} {x y : Nat}

/-- The sides and the places of all pixels fit 32 bits with a sign. -/
def FitsInt32 (s : Size) : Prop := s.width < 2147483648 ∧ s.height < 2147483648 ∧ s.area ≤ 2147483648

instance (s : Size) : Decidable s.FitsInt32 := inferInstanceAs (Decidable (_ ∧ _))

/-- The place of a position in the array, as words with a sign give it. A product or a sum that does not fit is a
fault. -/
def place? (s : Size) (x y : Int) : Option Nat := do
  let row ← int32? (y * toInt32 s.width)
  return toAddress (← int32? (row + x))

/-- In an image that fits, the place of a pixel is its place in row-major order. -/
theorem place?_eq_some (hs : s.FitsInt32) (h : s.Contains x y) : s.place? x y = some (s.index x y) := by
  have hplace := index_lt h
  have hrow : y * s.width ≤ s.index x y := Nat.le_add_right _ _
  have harea := hs.2.2
  have hfits : IsInt32 ((y * s.width : Nat) : Int) ∧ IsInt32 (s.index x y) := by
    simp only [IsInt32]
    omega
  have hrow' : int32? (y * s.width) = some ((y * s.width : Nat) : Int) := by
    rw [← Int.natCast_mul]
    exact int32?_eq_some hfits.1
  have hplace' : int32? ((y * s.width : Nat) + x : Int) = some (s.index x y : Int) := int32?_eq_some hfits.2
  rw [place?, toInt32_eq hs.1, hrow']
  simp only [Option.bind_eq_bind, Option.bind_some, hplace',
    toAddress_natCast (by omega : s.index x y < 18446744073709551616)]
  rfl

/-- A place that does not fit is a fault. -/
theorem place?_eq_none (hwidth : s.width < 2147483648) (h : 2147483648 ≤ s.index x y) : s.place? x y = none := by
  have hplace : ¬ IsInt32 ((y * s.width : Nat) + x : Int) := by
    have hindex : s.index x y = y * s.width + x := rfl
    simp only [IsInt32]
    omega
  rw [place?, toInt32_eq hwidth, ← Int.natCast_mul]
  by_cases hrow : IsInt32 ((y * s.width : Nat) : Int)
  · rw [int32?_eq_some hrow]
    simp only [Option.bind_eq_bind, Option.bind_some, int32?_eq_none hplace, Option.bind_none]
  · rw [int32?_eq_none hrow]
    rfl

/-- The place one step away, if that position lies inside. The position is computed and tested in words. -/
def near? (s : Size) (x y : Int) (d : Int × Int) : Option (Option Nat) := do
  let x' ← int32? (x + d.1)
  let y' ← int32? (y + d.2)
  if 0 ≤ x' ∧ 0 ≤ y' ∧ x' < toInt32 s.width ∧ y' < toInt32 s.height then return some (← s.place? x' y')
  else return none

/-- In an image that fits, the neighbours of a pixel are found at their places without fault. -/
theorem near?_eq_some (hs : s.FitsInt32) (h : s.Contains x y) {d : Int × Int} (hd : IsUnitStep d) :
    s.near? x y d = some ((s.step? x y d).map fun q => s.index q.1 q.2) := by
  have hwidth := hs.1
  have hheight := hs.2.1
  obtain ⟨hx, hy⟩ := h
  have hfits : IsInt32 (x + d.1) ∧ IsInt32 (y + d.2) := by
    simp only [IsInt32, IsUnitStep] at *
    omega
  simp only [near?, step?, int32?_eq_some hfits.1, int32?_eq_some hfits.2, toInt32_eq hwidth, toInt32_eq hheight,
    Option.bind_eq_bind, Option.bind_some]
  split
  · next hin =>
    obtain ⟨x', hx'⟩ := Int.eq_ofNat_of_zero_le hin.1
    obtain ⟨y', hy'⟩ := Int.eq_ofNat_of_zero_le hin.2.1
    rw [hx', hy'] at hin ⊢
    rw [place?_eq_some hs ⟨by omega, by omega⟩]
    rfl
  · rfl

/-- The positions in the order of a scan that counts rows and columns in words. -/
def scanOrder (s : Size) : List (Int × Int) :=
  (intRange 0 (toInt32 s.height)).flatMap fun y => (intRange 0 (toInt32 s.width)).map fun x => (x, y)

/-- The rows of a size one after the other are its positions in row-major order. -/
theorem map_range_mul (w : Nat) (hw : 0 < w) (h : Nat) : (List.range (w * h)).map (fun i => (i % w, i / w)) =
    (List.range h).flatMap fun y => (List.range w).map fun x => (x, y) := by
  induction h with
  | zero => rfl
  | succ h ih =>
    rw [Nat.mul_succ, List.range_add, List.map_append, ih, List.range_succ, List.flatMap_append,
      List.flatMap_singleton, List.map_map]
    congr 1
    refine List.map_congr_left fun x hx => ?_
    have hlt : x < w := List.mem_range.mp hx
    simp only [Function.comp_apply, Nat.mul_add_mod, Nat.mod_eq_of_lt hlt, Nat.mul_add_div hw,
      Nat.div_eq_of_lt hlt, Nat.add_zero]

/-- A scan of an image whose sides fit passes all positions in row-major order. -/
theorem scanOrder_eq (hwidth : s.width < 2147483648) (hheight : s.height < 2147483648) :
    s.scanOrder = (List.range s.area).map fun i => (((i % s.width : Nat) : Int), ((i / s.width : Nat) : Int)) := by
  have hcast : (fun i => (((i % s.width : Nat) : Int), ((i / s.width : Nat) : Int))) =
      (fun p : Nat × Nat => ((p.1 : Int), (p.2 : Int))) ∘ fun i => (i % s.width, i / s.width) := rfl
  rw [scanOrder, toInt32_eq hwidth, toInt32_eq hheight, intRange_zero, intRange_zero, hcast, ← List.map_map, area,
    map_range_mul s.width s.width_pos, List.map_flatMap, List.flatMap_map]
  simp only [List.map_map, Function.comp_def]

/-- A scan of an image with a side of half the range or more passes no position. -/
theorem scanOrder_eq_nil (hwidth : IsNat32 s.width) (hheight : IsNat32 s.height)
    (h : 2147483648 ≤ s.width ∨ 2147483648 ≤ s.height) : s.scanOrder = [] := by
  rcases h with hlong | hlong
  · rw [scanOrder, intRange_eq_nil (Int.le_of_lt (toInt32_neg hlong hwidth))]
    exact List.flatMap_eq_nil_iff.mpr fun _ _ => rfl
  · rw [scanOrder, intRange_eq_nil (Int.le_of_lt (toInt32_neg hlong hheight))]
    rfl

/-- If the sides of an image fit and its area does not, a scan comes to a position whose place is a fault. -/
theorem exists_place?_eq_none (hwidth : s.width < 2147483648) (hheight : s.height < 2147483648)
    (harea : 2147483648 < s.area) : ∃ p ∈ s.scanOrder, s.place? p.1 p.2 = none := by
  refine ⟨_, scanOrder_eq hwidth hheight ▸ List.mem_map_of_mem (List.mem_range.mpr harea), ?_⟩
  exact place?_eq_none hwidth (Nat.le_of_eq (s.index_mod_div _).symm)

end Size

section Scans

variable {α : Type} {s : Size} {visit? : α → Int × Int → Option α} {visit : Nat → Nat → α → α} {P : α → Prop}

/-- The visits to positions inside are without fault and keep a property of the state. -/
def VisitsInside (s : Size) (P : α → Prop) (visit? : α → Int × Int → Option α) (visit : Nat → Nat → α → α) :
    Prop :=
  ∀ x y, s.Contains x y → ∀ a, P a → visit? a (x, y) = some (visit x y a) ∧ P (visit x y a)

/-- Visits to the places of some rounds, all inside, are without fault. -/
theorem VisitsInside.foldlM_map (h : VisitsInside s P visit? visit) (place : Nat → Nat) {n : Nat}
    (hplace : ∀ j < n, place j < s.area) {a : α} (ha : P a) :
    ((List.range n).map fun j =>
      (((place j % s.width : Nat) : Int), ((place j / s.width : Nat) : Int))).foldlM visit? a =
      some (Nat.fold n (fun j _ => visit (place j % s.width) (place j / s.width)) a) ∧
    P (Nat.fold n (fun j _ => visit (place j % s.width) (place j / s.width)) a) := by
  induction n with
  | zero => exact ⟨rfl, ha⟩
  | succ n ih =>
    obtain ⟨hbefore, hP⟩ := ih fun j hj => hplace j (Nat.lt_succ_of_lt hj)
    obtain ⟨hvisit, hP'⟩ := h _ _ (Size.contains_mod_div (hplace n (Nat.lt_succ_self n))) _ hP
    rw [List.range_succ, List.map_append, List.foldlM_append, hbefore, Nat.fold_succ]
    simp only [Option.bind_eq_bind, Option.bind_some, List.map_singleton, List.foldlM_cons, List.foldlM_nil,
      hvisit]
    exact ⟨rfl, hP'⟩

/-- In an image that fits, a scan with visits inside is the plain scan over all positions. -/
theorem foldlM_scanOrder (hs : s.FitsInt32) (h : VisitsInside s P visit? visit) {a : α} (ha : P a) :
    s.scanOrder.foldlM visit? a = some (Nat.fold s.area (fun i _ => visit (i % s.width) (i / s.width)) a) ∧
    P (Nat.fold s.area (fun i _ => visit (i % s.width) (i / s.width)) a) := by
  rw [Size.scanOrder_eq hs.1 hs.2.1]
  exact h.foldlM_map (fun j => j) (fun _ hj => hj) ha

/-- In an image that fits, a scan back with visits inside is the plain scan over all positions from the
last one. -/
theorem foldlM_scanOrder_reverse (hs : s.FitsInt32) (h : VisitsInside s P visit? visit) {a : α} (ha : P a) :
    s.scanOrder.reverse.foldlM visit? a =
      some (Nat.fold s.area (fun j _ => visit ((s.area - 1 - j) % s.width) ((s.area - 1 - j) / s.width)) a) ∧
    P (Nat.fold s.area (fun j _ => visit ((s.area - 1 - j) % s.width) ((s.area - 1 - j) / s.width)) a) := by
  have hreverse : (List.range s.area).reverse = (List.range s.area).map fun j => s.area - 1 - j := by
    rw [List.range_eq_range', List.reverse_range', ← List.range_eq_range', Nat.zero_add]
  rw [Size.scanOrder_eq hs.1 hs.2.1, ← List.map_reverse, hreverse, List.map_map]
  exact h.foldlM_map (fun j => s.area - 1 - j) (fun j hj => by omega) ha

/-- If the sides of an image fit and its area does not, a scan that computes every place ends with a fault. -/
theorem foldlM_scanOrder_eq_none (hwidth : s.width < 2147483648) (hheight : s.height < 2147483648)
    (harea : 2147483648 < s.area) (hvisit : ∀ p : Int × Int, s.place? p.1 p.2 = none → ∀ a, visit? a p = none)
    (a : α) : s.scanOrder.foldlM visit? a = none := by
  obtain ⟨p, hp, hfault⟩ := Size.exists_place?_eq_none hwidth hheight harea
  exact foldlM_eq_none_of_mem hp (hvisit p hfault) a

end Scans

namespace Grid

variable {α : Type} {g : Grid α} {x y : Nat}

/-- The cell at a place of the array. A place beyond the array is a fault. -/
def readAt? (g : Grid α) (place : Nat) : Option α := g.cells[place]?

/-- A cell of the array replaced. A place beyond the array is a fault. -/
def writeAt? (g : Grid α) (place : Nat) (value : α) : Option (Grid α) :=
  if h : place < g.cells.size then
    some ⟨g.size, g.cells.set place value, by rw [Array.size_set, g.size_cells]⟩
  else none

/-- At the place of a position inside, the cell there is read. -/
theorem readAt?_eq_some (h : g.size.Contains x y) (outside : α) :
    g.readAt? (g.size.index x y) = some (g.getD x y outside) := by
  rw [← get?_of_contains h outside, get?, if_pos h]
  rfl

/-- At the place of a position inside, that position is set. -/
theorem writeAt?_eq_some (h : g.size.Contains x y) (value : α) :
    g.writeAt? (g.size.index x y) value = some (g.set x y value) := by
  have hplace : g.size.index x y < g.cells.size := g.size_cells ▸ Size.index_lt h
  rw [writeAt?, dif_pos hplace]
  simp [set, h, Array.setIfInBounds, hplace]

end Grid

end ScannedPage
