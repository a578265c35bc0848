import Mathlib.Algebra.Order.Field.Rat
import Mathlib.Algebra.Order.Field.Basic
import Mathlib.Order.Interval.Set.UnorderedInterval
import ScannedPage.Proofs.Counting
import ScannedPage.Proofs.Rect
import ScannedPage.Region.Picture

/-!
# The edges of a contracted rectangle

An edge of a rectangle looks at one line after another on its way to the opposite edge, and comes to rest at the
first one that fits; when none fits it stays where it was (`Rests`). A line fits when the share of its pixels that
the mask leaves out is at most a limit. A contraction visits top, bottom, left and right in this order, so each of
them sees the lines of the rectangle that the edges before it left (`Box.isContraction_contract`), and all of them
stay inside.
-/

namespace ScannedPage

/-- The share of the pixels of a rectangle that a mask leaves out. -/
def Mask.unsetShare (m : Mask) (r : Rect) : ℚ :=
  (m.size.positions.filter fun q => r.contains q.1 q.2 = true ∧ ¬ m.Selects q).card / r.area

namespace Rect

/-- One row of a rectangle. -/
def row (r : Rect) (y : Int) : Rect := ⟨r.x, y, r.w, 1⟩

/-- One column of a rectangle. -/
def column (r : Rect) (x : Int) : Rect := ⟨x, r.y, 1, r.h⟩

/-- Of a row of the rectangle the mask leaves out no more than a limit. -/
def RowFits (m : Mask) (limit : ℚ) (r : Rect) (y : Int) : Prop := m.unsetShare (r.row y) ≤ limit

/-- Of a column of the rectangle the mask leaves out no more than a limit. -/
def ColumnFits (m : Mask) (limit : ℚ) (r : Rect) (x : Int) : Prop := m.unsetShare (r.column x) ≤ limit

end Rect

namespace Region

/-- Where an edge comes to rest that looks at all lines from its start to a stop: at the first line that fits, or
at its start when none does. -/
def Rests (fits : Int → Prop) (start stop edge : Int) : Prop :=
  (edge ∈ Set.uIcc start stop ∧ fits edge ∧ ∀ line ∈ Set.uIcc start edge, fits line → line = edge) ∨
    (edge = start ∧ ∀ line ∈ Set.uIcc start stop, ¬ fits line)

/-- A rectangle whose edges came to rest one after the other, each on its way to the opposite edge at that time. -/
structure IsContraction (m : Mask) (limit : ℚ) (bounds r : Rect) : Prop where
  top : Rests (bounds.RowFits m limit) bounds.y (bounds.bottom - 1) r.y
  bottom : Rests (bounds.RowFits m limit) (bounds.bottom - 1) r.y (r.bottom - 1)
  left : Rests (r.ColumnFits m limit) bounds.x (bounds.right - 1) r.x
  right : Rests (r.ColumnFits m limit) (bounds.right - 1) r.x (r.right - 1)

/-- The share of a line that a sensitivity lets the mask leave out. -/
def unsetLimit (sensitivity : Nat) : ℚ := ((fullSensitivity - sensitivity : Nat) : ℚ) / 100

/-- An edge comes to rest between its start and its stop. -/
theorem Rests.mem {fits : Int → Prop} {start stop edge : Int} (h : Rests fits start stop edge) :
    edge ∈ Set.uIcc start stop := by
  rcases h with ⟨hmem, _⟩ | ⟨rfl, _⟩
  · exact hmem
  · exact Set.left_mem_uIcc

/-- A contraction of a rectangle with pixels has pixels and lies within. -/
theorem IsContraction.within {m : Mask} {limit : ℚ} {bounds r : Rect} (h : IsContraction m limit bounds r)
    (hpos : 0 < bounds.w ∧ 0 < bounds.h) : (0 < r.w ∧ 0 < r.h) ∧ r.Within bounds := by
  have htop := h.top.mem
  have hbottom := h.bottom.mem
  have hleft := h.left.mem
  have hright := h.right.mem
  simp only [Set.mem_uIcc, Rect.right, Rect.bottom] at htop hbottom hleft hright
  simp only [Rect.Within, Rect.right, Rect.bottom]
  omega

section FirstKept

variable {length : Nat} {missing : Nat → Bool}

/-- The first line that does not miss too much comes after lines that do; without one it is the first line
of all. -/
theorem firstKept_cases (length : Nat) (missing : Nat → Bool) :
    (firstKept length missing < length ∧ missing (firstKept length missing) = false ∧
      ∀ i < firstKept length missing, missing i = true) ∨
    (firstKept length missing = 0 ∧ ∀ i < length, missing i = true) := by
  rw [firstKept]
  cases hfound : (List.range length).find? fun i => !missing i with
  | none =>
    refine Or.inr ⟨rfl, fun i hi => ?_⟩
    simpa using List.find?_eq_none.mp hfound i (List.mem_range.mpr hi)
  | some k =>
    obtain ⟨hkept, hmem, hbefore⟩ := List.find?_range_eq_some.mp hfound
    refine Or.inl ⟨List.mem_range.mp hmem, ?_, fun i hi => ?_⟩
    · simpa using hkept
    · simpa using hbefore i hi

/-- The first line kept is one of the lines, if there is any. -/
theorem firstKept_lt (hlength : 0 < length) (missing : Nat → Bool) : firstKept length missing < length := by
  rcases firstKept_cases length missing with ⟨hlt, _⟩ | ⟨hzero, _⟩
  · exact hlt
  · rwa [hzero]

/-- An edge that moves by the number of lines before the first kept one, forward or backward, comes to rest. -/
theorem rests_firstKept (missing : Nat → Bool) {fits : Int → Prop} {start stop edge d : Int} (hd : d = 1 ∨ d = -1)
    (hlength : 0 < length)
    (hstop : stop = start + d * (length - 1)) (hedge : edge = start + d * firstKept length missing)
    (hfits : ∀ i < length, fits (start + d * i) ↔ missing i = false) : Rests fits start stop edge := by
  -- a line on the way is some number of steps away from the start
  have hline (line : Int) (n : Nat) : line ∈ Set.uIcc start (start + d * n) ↔ ∃ i ≤ n, line = start + d * i := by
    rw [Set.mem_uIcc]
    constructor
    · intro hmem
      refine ⟨(d * (line - start)).toNat, ?_, ?_⟩ <;> rcases hd with rfl | rfl <;> omega
    · rintro ⟨i, hi, rfl⟩
      rcases hd with rfl | rfl <;> omega
  obtain rfl : stop = start + d * ((length - 1 : Nat) : Int) := by rw [hstop]; congr 2; omega
  subst hedge
  have hlt := firstKept_lt hlength missing
  rcases firstKept_cases length missing with ⟨_, hkept, hbefore⟩ | ⟨hzero, hall⟩
  · refine Or.inl ⟨(hline _ _).mpr ⟨_, by omega, rfl⟩, (hfits _ hlt).mpr hkept, fun line hmem hline' => ?_⟩
    obtain ⟨i, hi, rfl⟩ := (hline _ _).mp hmem
    rcases Nat.lt_or_eq_of_le hi with hi | rfl
    · exact absurd (hbefore i hi) (by simp [(hfits i (by omega)).mp hline'])
    · rfl
  · refine Or.inr ⟨by simp [hzero], fun line hmem hline' => ?_⟩
    obtain ⟨i, hi, rfl⟩ := (hline _ _).mp hmem
    exact absurd (hall i (by omega)) (by simp [(hfits i (by omega)).mp hline'])

/-- An edge that moves forward to the first kept line comes to rest before the last line. -/
theorem rests_forward (missing : Nat → Bool) {fits : Int → Prop} {first last : Nat} (hle : first ≤ last)
    (hfits : ∀ line : Nat, first ≤ line → line ≤ last → (fits line ↔ missing line = false)) :
    first + firstKept (last - first + 1) (fun i => missing (first + i)) ≤ last ∧
      Rests fits first last (first + firstKept (last - first + 1) fun i => missing (first + i) : Nat) := by
  have hpos : 0 < last - first + 1 := Nat.succ_pos _
  have hlt := firstKept_lt hpos fun i => missing (first + i)
  refine ⟨by omega, rests_firstKept (fun i => missing (first + i)) (Or.inl rfl) hpos (by omega) (by omega)
    fun i hi => ?_⟩
  rw [show (first : Int) + 1 * i = (first + i : Nat) by omega]
  exact hfits _ (by omega) (by omega)

/-- An edge that moves backward to the first kept line comes to rest behind the first line. -/
theorem rests_backward (missing : Nat → Bool) {fits : Int → Prop} {first last : Nat} (hle : first ≤ last)
    (hfits : ∀ line : Nat, first ≤ line → line ≤ last → (fits line ↔ missing line = false)) :
    first ≤ last - firstKept (last - first + 1) (fun i => missing (last - i)) ∧
      Rests fits last first (last - firstKept (last - first + 1) fun i => missing (last - i) : Nat) := by
  have hpos : 0 < last - first + 1 := Nat.succ_pos _
  have hlt := firstKept_lt hpos fun i => missing (last - i)
  refine ⟨by omega, rests_firstKept (fun i => missing (last - i)) (Or.inr rfl) hpos (by omega) (by omega)
    fun i hi => ?_⟩
  rw [show (last : Int) + -1 * i = (last - i : Nat) by omega]
  exact hfits _ (by omega) (by omega)

end FirstKept

section Lines

variable {m : Mask} {sensitivity length : Nat} {line : Rect}

/-- The pixels that a line misses are the positions in it that the mask does not select. -/
theorem misses_eq_card {place : Nat → Nat × Nat} (hplace : Function.Injective place)
    (hline : ∀ q, m.size.Contains q.1 q.2 ∧ line.contains q.1 q.2 = true ↔ ∃ i < length, place i = q) :
    misses (fun i => m.get (place i).1 (place i).2) length =
      (m.size.positions.filter fun q => line.contains q.1 q.2 = true ∧ ¬ m.Selects q).card := by
  have hrange := Nat.count_eq_card_filter_range (fun i => (!m.get (place i).1 (place i).2) = true) length
  rw [Nat.count] at hrange
  simp only [Bool.decide_eq_true] at hrange
  rw [misses, hrange]
  refine Finset.card_nbij place ?_ hplace.injOn ?_
  · intro i hi
    obtain ⟨hlt, hunset⟩ := Finset.mem_filter.mp hi
    obtain ⟨hin, hcontains⟩ := (hline (place i)).mpr ⟨i, Finset.mem_range.mp hlt, rfl⟩
    refine Finset.mem_coe.mpr (Finset.mem_filter.mpr ⟨Size.mem_positions.mpr hin, hcontains, ?_⟩)
    simpa [Mask.Selects] using hunset
  · intro q hq
    obtain ⟨hin, hcontains, hunset⟩ := Finset.mem_filter.mp hq
    obtain ⟨i, hi, rfl⟩ := (hline q).mp ⟨Size.mem_positions.mp hin, hcontains⟩
    refine ⟨i, Finset.mem_coe.mpr (Finset.mem_filter.mpr ⟨Finset.mem_range.mpr hi, ?_⟩), rfl⟩
    simpa [Mask.Selects] using hunset

/-- A line misses too much of the mask when its share exceeds the limit. -/
theorem unsetShare_le_iff (place : Nat → Nat × Nat) (hplace : Function.Injective place) (hlength : 0 < length)
    (harea : line.area = length)
    (hline : ∀ q, m.size.Contains q.1 q.2 ∧ line.contains q.1 q.2 = true ↔ ∃ i < length, place i = q) :
    m.unsetShare line ≤ unsetLimit sensitivity ↔
      missesTooMuch sensitivity (misses (fun i => m.get (place i).1 (place i).2) length) length = false := by
  have hpos : (0 : ℚ) < length := Nat.cast_pos.mpr hlength
  rw [Mask.unsetShare, ← misses_eq_card hplace hline, harea, Int.cast_natCast, unsetLimit,
    div_le_div_iff₀ hpos (by norm_num), missesTooMuch, decide_eq_false_iff_not, Nat.not_lt]
  exact_mod_cast Iff.rfl

end Lines

namespace Box

/-- The box lies in an image. -/
structure Inside (b : Box) (s : Size) : Prop where
  left_le : b.left ≤ b.right
  right_lt : b.right < s.width
  top_le : b.top ≤ b.bottom
  bottom_lt : b.bottom < s.height

variable {m : Mask} {b : Box} {sensitivity : Nat}

/-- A row of a box fits when it does not miss too much. -/
theorem rowFits_iff (hb : b.Inside m.size) {y : Nat} (hy : y < m.size.height) :
    b.toRect.RowFits m (unsetLimit sensitivity) y ↔ b.rowMissing m sensitivity y = false := by
  have hle := hb.left_le
  have hlt := hb.right_lt
  refine unsetShare_le_iff (fun i => (b.left + i, y)) ?_ (Nat.succ_pos _) ?_ fun q => ?_
  · exact fun i j h => Nat.add_left_cancel (Prod.mk.inj h).1
  · simp only [Rect.area, Rect.row, toRect, Rect.ofInclusive, width]
    omega
  · rw [Rect.contains_iff]
    simp only [Size.Contains, Rect.row, toRect, Rect.ofInclusive, width, Prod.ext_iff]
    constructor
    · intro hq
      exact ⟨q.1 - b.left, by omega, by omega, by omega⟩
    · rintro ⟨i, hi, h₁, h₂⟩
      omega

/-- A column of a box fits when it does not miss too much. -/
theorem columnFits_iff (hb : b.Inside m.size) {x : Nat} (hx : x < m.size.width) :
    b.toRect.ColumnFits m (unsetLimit sensitivity) x ↔ b.columnMissing m sensitivity x = false := by
  have hle := hb.top_le
  have hlt := hb.bottom_lt
  refine unsetShare_le_iff (fun i => (x, b.top + i)) ?_ (Nat.succ_pos _) ?_ fun q => ?_
  · exact fun i j h => Nat.add_left_cancel (Prod.mk.inj h).2
  · simp only [Rect.area, Rect.column, toRect, Rect.ofInclusive, height]
    omega
  · rw [Rect.contains_iff]
    simp only [Size.Contains, Rect.column, toRect, Rect.ofInclusive, height, Prod.ext_iff]
    constructor
    · intro hq
      exact ⟨q.2 - b.top, by omega, by omega, by omega⟩
    · rintro ⟨i, hi, h₁, h₂⟩
      omega

/-- The top edge comes to rest on its way to the bottom edge. -/
theorem contractTop_rests (hb : b.Inside m.size) (sensitivity : Nat) :
    (b.contractTop m sensitivity).Inside m.size ∧
    Rests (b.toRect.RowFits m (unsetLimit sensitivity)) b.top b.bottom
      (b.contractTop m sensitivity).top := by
  have hbottom := hb.bottom_lt
  obtain ⟨hle, hrests⟩ := rests_forward (b.rowMissing m sensitivity) hb.top_le fun y _ hy =>
    rowFits_iff hb (Nat.lt_of_le_of_lt hy hbottom)
  exact ⟨⟨hb.left_le, hb.right_lt, hle, hbottom⟩, hrests⟩

/-- The bottom edge comes to rest on its way to the top edge. -/
theorem contractBottom_rests (hb : b.Inside m.size) (sensitivity : Nat) :
    (b.contractBottom m sensitivity).Inside m.size ∧
    Rests (b.toRect.RowFits m (unsetLimit sensitivity)) b.bottom b.top
      (b.contractBottom m sensitivity).bottom := by
  have hbottom := hb.bottom_lt
  obtain ⟨hle, hrests⟩ := rests_backward (b.rowMissing m sensitivity) hb.top_le fun y _ hy =>
    rowFits_iff hb (Nat.lt_of_le_of_lt hy hbottom)
  exact ⟨⟨hb.left_le, hb.right_lt, hle, Nat.lt_of_le_of_lt (Nat.sub_le _ _) hbottom⟩, hrests⟩

/-- The left edge comes to rest on its way to the right edge. -/
theorem contractLeft_rests (hb : b.Inside m.size) (sensitivity : Nat) :
    (b.contractLeft m sensitivity).Inside m.size ∧
    Rests (b.toRect.ColumnFits m (unsetLimit sensitivity)) b.left b.right
      (b.contractLeft m sensitivity).left := by
  have hright := hb.right_lt
  obtain ⟨hle, hrests⟩ := rests_forward (b.columnMissing m sensitivity) hb.left_le fun x _ hx =>
    columnFits_iff hb (Nat.lt_of_le_of_lt hx hright)
  exact ⟨⟨hle, hright, hb.top_le, hb.bottom_lt⟩, hrests⟩

/-- The right edge comes to rest on its way to the left edge. -/
theorem contractRight_rests (hb : b.Inside m.size) (sensitivity : Nat) :
    Rests (b.toRect.ColumnFits m (unsetLimit sensitivity)) b.right b.left (b.contractRight m sensitivity).right :=
  have hfits (x : Nat) (_ : b.left ≤ x) (hx : x ≤ b.right) := columnFits_iff hb (Nat.lt_of_le_of_lt hx hb.right_lt)
  (rests_backward _ hb.left_le hfits).2

/-- The edges of a contracted box came to rest in their order. -/
theorem isContraction_contract (hb : b.Inside m.size) (sensitivity : Nat) :
    IsContraction m (unsetLimit sensitivity) b.toRect (b.contract m sensitivity).toRect := by
  have hlast (b : Box) : b.toRect.right - 1 = b.right ∧ b.toRect.bottom - 1 = b.bottom := by
    simp only [toRect, Rect.ofInclusive, Rect.right, Rect.bottom]
    omega
  obtain ⟨hb₁, htop⟩ := contractTop_rests hb sensitivity
  obtain ⟨hb₂, hbottom⟩ := contractBottom_rests hb₁ sensitivity
  obtain ⟨hb₃, hleft⟩ := contractLeft_rests hb₂ sensitivity
  have hright := contractRight_rests hb₃ sensitivity
  refine ⟨?_, ?_, ?_, ?_⟩
  · rw [(hlast b).2]
    exact htop
  · rw [(hlast b).2, (hlast _).2]
    exact hbottom
  · rw [(hlast b).1]
    exact hleft
  · rw [(hlast b).1, (hlast _).1]
    exact hright

end Box

end Region

end ScannedPage
