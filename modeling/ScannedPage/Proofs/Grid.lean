import Mathlib.Tactic.Common
import ScannedPage.Mask

/-!
# Positions, readings and scans

Readings of grids with a value for the outside, the order of positions in a raster scan, and the
induction behind every scan: what holds before the first position and is kept by each one holds after
the last (`scan_induction`).
-/

namespace ScannedPage

/-- A property of the state before each round that every round keeps holds after the last. -/
theorem scan_induction {α : Type*} (n : Nat) (step : (i : Nat) → i < n → α → α) (start : α)
    (P : Nat → α → Prop) (hstart : P 0 start) (hstep : ∀ i (hi : i < n) a, P i a → P (i + 1) (step i hi a)) :
    P n (Nat.fold n step start) := by
  induction n with
  | zero => exact hstart
  | succ n ih =>
    rw [Nat.fold_succ]
    exact hstep n (Nat.lt_succ_self n) _
      (ih (fun i hi => step i (Nat.lt_succ_of_lt hi)) fun i hi => hstep i (Nat.lt_succ_of_lt hi))

/-- A relation between two states that every round of two scans keeps holds after the last rounds. -/
theorem scan_related {α : Type*} (n : Nat) (step step' : (i : Nat) → i < n → α → α) {start start' : α}
    (R : α → α → Prop) (hstart : R start start')
    (hstep : ∀ i (hi : i < n) a a', R a a' → R (step i hi a) (step' i hi a')) :
    R (Nat.fold n step start) (Nat.fold n step' start') := by
  induction n with
  | zero => exact hstart
  | succ n ih =>
    rw [Nat.fold_succ, Nat.fold_succ]
    exact hstep n (Nat.lt_succ_self n) _ _ (ih _ _ fun i hi => hstep i (Nat.lt_succ_of_lt hi))

namespace Size

/-- A size is determined by its sides. -/
theorem eq_of_sides_eq {s t : Size} (h : s.sides = t.sides) : s = t := by
  obtain ⟨w, h₁, _, _⟩ := s
  obtain ⟨w', h₂, _, _⟩ := t
  simp only [sides, Prod.mk.injEq] at h
  obtain ⟨rfl, rfl⟩ := h
  rfl

/-- A position is determined by its place in row-major order. -/
theorem index_inj {s : Size} {x y x' y' : Nat} (hx : x < s.width) (hx' : x' < s.width)
    (h : s.index x y = s.index x' y') : x = x' ∧ y = y' := by
  constructor
  · rw [← index_mod hx (y := y), h, index_mod hx']
  · rw [← index_div hx (y := y), h, index_div hx']

/-- A scan that passes one more position has passed those before it and this one. -/
theorem index_lt_succ_iff {s : Size} {x y : Nat} {q : Nat × Nat} (hq : q.1 < s.width) (hx : x < s.width) :
    s.index q.1 q.2 < s.index x y + 1 ↔ s.index q.1 q.2 < s.index x y ∨ q = (x, y) := by
  rw [Nat.lt_succ_iff_lt_or_eq]
  refine or_congr_right ⟨fun heq => ?_, fun heq => by rw [heq]⟩
  obtain ⟨hx', hy'⟩ := index_inj hq hx heq
  exact Prod.ext hx' hy'

/-- A scan visits the rows in order, and each row from left to right. -/
theorem index_lt_index_iff {s : Size} {x y x' y' : Nat} (hx : x < s.width) (hx' : x' < s.width) :
    s.index x y < s.index x' y' ↔ y < y' ∨ y = y' ∧ x < x' := by
  rcases Nat.lt_trichotomy y y' with hlt | rfl | hgt
  · have hrow : (y + 1) * s.width ≤ y' * s.width := Nat.mul_le_mul_right _ hlt
    rw [Nat.add_mul, Nat.one_mul] at hrow
    simp only [index]
    omega
  · simp only [index, Nat.lt_irrefl, true_and, false_or, Nat.add_lt_add_iff_left]
  · have hrow : (y' + 1) * s.width ≤ y * s.width := Nat.mul_le_mul_right _ hgt
    rw [Nat.add_mul, Nat.one_mul] at hrow
    simp only [index]
    omega

end Size

namespace Grid

variable {α : Type*} {β : Type*}

/-- A grid drawn by a rule has the size it was drawn with. -/
@[simp] theorem size_ofFn (s : Size) (f : Nat → Nat → α) : (ofFn s f).size = s := rfl

/-- A filled grid has the size it was filled with. -/
@[simp] theorem size_filled (s : Size) (value : α) : (filled s value).size = s := rfl

/-- A map of the cells keeps the size. -/
@[simp] theorem size_map (f : α → β) (g : Grid α) : (g.map f).size = g.size := rfl

/-- Outside of a grid the given value is read. -/
theorem getD_of_not_contains {g : Grid α} {x y : Nat} (h : ¬ g.size.Contains x y) (outside : α) :
    g.getD x y outside = outside := by
  rw [getD, get?_eq_none.mpr h, Option.getD_none]

/-- Inside of a grid there is a cell to be read. -/
theorem get?_of_contains {g : Grid α} {x y : Nat} (h : g.size.Contains x y) (outside : α) :
    g.get? x y = some (g.getD x y outside) := by
  cases hv : g.get? x y with
  | none => exact absurd h (get?_eq_none.mp hv)
  | some v => rw [getD, hv, Option.getD_some]

/-- A grid drawn by a rule reads as the rule says inside. -/
theorem getD_ofFn (s : Size) (f : Nat → Nat → α) (x y : Nat) (outside : α) :
    (ofFn s f).getD x y outside = if s.Contains x y then f x y else outside := by
  rw [getD, get?_ofFn]
  split <;> rfl

/-- A filled grid reads its value inside. -/
theorem getD_filled (s : Size) (value : α) (x y : Nat) (outside : α) :
    (filled s value).getD x y outside = if s.Contains x y then value else outside := by
  rw [getD, get?_filled]
  split <;> rfl

/-- A rule that draws one value everywhere fills the grid with it. -/
theorem ofFn_const (s : Size) (value : α) : ofFn s (fun _ _ => value) = filled s value := by
  refine ext_get? rfl fun x y => ?_
  rw [get?_ofFn, get?_filled]

/-- A map of a filled grid fills the grid with the image of the value. -/
theorem map_filled (f : α → β) (s : Size) (value : α) : (filled s value).map f = filled s (f value) := by
  refine ext_get? rfl fun x y => ?_
  rw [get?_map, get?_filled, get?_filled]
  split <;> rfl

/-- Setting a cell changes the reading at its own position, if that lies inside. -/
theorem getD_set (g : Grid α) (x y : Nat) (value : α) (x' y' : Nat) (outside : α) :
    (g.set x y value).getD x' y' outside =
      if x' = x ∧ y' = y ∧ g.size.Contains x y then value else g.getD x' y' outside := by
  rw [getD, get?_set]
  split <;> rfl

/-- Grids of one size that read alike inside are equal. -/
theorem ext_getD {g g' : Grid α} (hsize : g.size = g'.size) (outside : α)
    (h : ∀ x y, g.size.Contains x y → g.getD x y outside = g'.getD x y outside) : g = g' := by
  refine ext_get? hsize fun x y => ?_
  by_cases hxy : g.size.Contains x y
  · rw [get?_of_contains hxy outside, get?_of_contains (hsize ▸ hxy) outside, h x y hxy]
  · rw [get?_eq_none.mpr hxy, get?_eq_none.mpr (hsize ▸ hxy)]

end Grid

namespace Mask

/-- The mask selects a position. -/
def Selects (m : Mask) (p : Nat × Nat) : Prop := m.get p.1 p.2 = true

/-- Whether a mask selects a position can be computed. -/
instance (m : Mask) (p : Nat × Nat) : Decidable (m.Selects p) := inferInstanceAs (Decidable (_ = true))

/-- Selected positions lie inside. -/
theorem Selects.contains {m : Mask} {p : Nat × Nat} (h : m.Selects p) : m.size.Contains p.1 p.2 := by
  by_contra hc
  rw [Selects, get, Grid.getD_of_not_contains hc] at h
  exact Bool.false_ne_true h

/-- A mask drawn by a rule selects as the rule says inside, and nothing outside. -/
theorem get_ofFn (s : Size) (f : Nat → Nat → Bool) (x y : Nat) :
    (ofFn s f).get x y = if s.Contains x y then f x y else false :=
  Grid.getD_ofFn s f x y false

end Mask

end ScannedPage
