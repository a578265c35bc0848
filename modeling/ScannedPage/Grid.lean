/-!
# Grids of pixels

A size is a width and a height of at least one pixel each. A grid of that size holds one cell per
position, rows from top to bottom and each row from left to right. Every operation is described by
`Grid.get?`, which reads one position and gives nothing outside the grid; two grids of one size that
read the same everywhere are equal (`Grid.ext_get?`).
-/

namespace ScannedPage

universe u v

/-- The extent of an image: both sides hold at least one pixel. -/
structure Size where
  width : Nat
  height : Nat
  width_pos : 0 < width
  height_pos : 0 < height
deriving DecidableEq, Repr

namespace Size

/-- The number of positions. -/
def area (s : Size) : Nat := s.width * s.height

/-- The pair of both sides, for comparison with a requested pair. -/
def sides (s : Size) : Nat × Nat := (s.width, s.height)

/-- The place of a position in row-major order. -/
def index (s : Size) (x y : Nat) : Nat := y * s.width + x

/-- The position lies inside. -/
def Contains (s : Size) (x y : Nat) : Prop := x < s.width ∧ y < s.height

instance (s : Size) (x y : Nat) : Decidable (s.Contains x y) :=
  inferInstanceAs (Decidable (_ ∧ _))

/-- The size with exchanged sides. -/
def transpose (s : Size) : Size := ⟨s.height, s.width, s.height_pos, s.width_pos⟩

/-- The place of a position inside is one in the array. -/
theorem index_lt {s : Size} {x y : Nat} (h : s.Contains x y) : s.index x y < s.area := by
  have hy : (y + 1) * s.width ≤ s.height * s.width := Nat.mul_le_mul_right _ h.2
  have hx := h.1
  rw [Nat.add_mul, Nat.one_mul] at hy
  rw [index, area, Nat.mul_comm s.width]
  omega

/-- The column of a position is found again from its place. -/
theorem index_mod {s : Size} {x y : Nat} (h : x < s.width) : s.index x y % s.width = x := by
  rw [index, Nat.add_comm, Nat.add_mul_mod_self_right, Nat.mod_eq_of_lt h]

/-- The row of a position is found again from its place. -/
theorem index_div {s : Size} {x y : Nat} (h : x < s.width) : s.index x y / s.width = y := by
  rw [index, Nat.add_comm, Nat.add_mul_div_right _ _ s.width_pos, Nat.div_eq_of_lt h, Nat.zero_add]

/-- A place is that of its column and its row. -/
theorem index_mod_div (s : Size) (i : Nat) : s.index (i % s.width) (i / s.width) = i := by
  rw [index, Nat.mul_comm]
  exact Nat.div_add_mod i s.width

/-- A place in the array is that of a position inside. -/
theorem contains_mod_div {s : Size} {i : Nat} (h : i < s.area) :
    s.Contains (i % s.width) (i / s.width) :=
  ⟨Nat.mod_lt _ s.width_pos, Nat.div_lt_of_lt_mul h⟩

end Size

/-- One cell per position of a size, in row-major order. -/
structure Grid (α : Type u) where
  size : Size
  cells : Array α
  size_cells : cells.size = size.area

namespace Grid

variable {α : Type u} {β : Type v}

/-- The grid whose cell at each position is a function of the position. -/
@[inline]
def ofFn (s : Size) (f : Nat → Nat → α) : Grid α where
  size := s
  cells := Array.ofFn fun i : Fin s.area => f (i.val % s.width) (i.val / s.width)
  size_cells := Array.size_ofFn

/-- The grid with one value everywhere. -/
def filled (s : Size) (value : α) : Grid α where
  size := s
  cells := Array.replicate s.area value
  size_cells := Array.size_replicate

/-- Row-major cells as a grid, if there is exactly one cell per position. -/
def ofCells? (s : Size) (cells : Array α) : Option (Grid α) :=
  if h : cells.size = s.area then some ⟨s, cells, h⟩ else none

/-- The cell at a position, if the position lies inside. -/
@[inline]
def get? (g : Grid α) (x y : Nat) : Option α :=
  if g.size.Contains x y then g.cells[g.size.index x y]? else none

/-- The cell at a position, with a value for the positions outside. -/
@[inline]
def getD (g : Grid α) (x y : Nat) (outside : α) : α := (g.get? x y).getD outside

/-- The grid with one cell replaced; positions outside are ignored. -/
@[inline]
def set (g : Grid α) (x y : Nat) (value : α) : Grid α :=
  if g.size.Contains x y then
    let ⟨size, cells, size_cells⟩ := g
    ⟨size, cells.setIfInBounds (size.index x y) value, by rw [Array.size_setIfInBounds, size_cells]⟩
  else g

/-- The grid of the images of all cells. -/
def map (f : α → β) (g : Grid α) : Grid β where
  size := g.size
  cells := g.cells.map f
  size_cells := by rw [Array.size_map, g.size_cells]

/-- A grid drawn by a rule has the cells inside that the rule says, and no others. -/
theorem get?_ofFn (s : Size) (f : Nat → Nat → α) (x y : Nat) :
    (ofFn s f).get? x y = if s.Contains x y then some (f x y) else none := by
  by_cases h : s.Contains x y
  · have hi := Size.index_lt h
    simp [get?, ofFn, h, hi, Size.index_mod h.1, Size.index_div h.1]
  · simp [get?, ofFn, h]

/-- A filled grid has its value in every cell inside, and no other cells. -/
theorem get?_filled (s : Size) (value : α) (x y : Nat) :
    (filled s value).get? x y = if s.Contains x y then some value else none := by
  by_cases h : s.Contains x y
  · simp [get?, filled, h, Size.index_lt h]
  · simp [get?, filled, h]

/-- A map of the cells acts on the cell at each position. -/
theorem get?_map (f : α → β) (g : Grid α) (x y : Nat) : (g.map f).get? x y = (g.get? x y).map f := by
  by_cases h : g.size.Contains x y
  · simp [get?, map, h]
  · simp [get?, map, h]

/-- Exactly the positions outside have no cell. -/
theorem get?_eq_none {g : Grid α} {x y : Nat} : g.get? x y = none ↔ ¬ g.size.Contains x y := by
  by_cases h : g.size.Contains x y
  · have hi : g.size.index x y < g.cells.size := by rw [g.size_cells]; exact Size.index_lt h
    simp [get?, h, hi]
  · simp [get?, h]

/-- Setting a cell keeps the size. -/
@[simp] theorem size_set (g : Grid α) (x y : Nat) (value : α) : (g.set x y value).size = g.size := by
  unfold set
  split <;> rfl

/-- Setting a cell changes the reading at its own position only. -/
theorem get?_set (g : Grid α) (x y : Nat) (value : α) (x' y' : Nat) :
    (g.set x y value).get? x' y' =
      if x' = x ∧ y' = y ∧ g.size.Contains x y then some value else g.get? x' y' := by
  by_cases h : g.size.Contains x y
  · by_cases h' : g.size.Contains x' y'
    · have hi : g.size.index x y < g.cells.size := by rw [g.size_cells]; exact Size.index_lt h
      by_cases he : x' = x ∧ y' = y
      · obtain ⟨rfl, rfl⟩ := he
        simp [set, get?, h, hi]
      · have hne : g.size.index x y ≠ g.size.index x' y' := by
          intro hc
          refine he ⟨?_, ?_⟩
          · rw [← Size.index_mod h'.1 (y := y'), ← hc, Size.index_mod h.1]
          · rw [← Size.index_div h'.1 (y := y'), ← hc, Size.index_div h.1]
        have he' : ¬ (x' = x ∧ y' = y ∧ g.size.Contains x y) := fun hc => he ⟨hc.1, hc.2.1⟩
        rw [if_neg he']
        simp [set, get?, h, h', Array.getElem?_setIfInBounds_ne hne]
    · have he' : ¬ (x' = x ∧ y' = y ∧ g.size.Contains x y) := by
        rintro ⟨rfl, rfl, hc⟩
        exact h' hc
      rw [if_neg he']
      simp [set, get?, h, h']
  · have he' : ¬ (x' = x ∧ y' = y ∧ g.size.Contains x y) := fun hc => h hc.2.2
    rw [if_neg he']
    simp [set, h]

/-- Grids of one size that read alike are equal. -/
theorem ext_get? {g g' : Grid α} (hs : g.size = g'.size) (h : ∀ x y, g.get? x y = g'.get? x y) : g = g' := by
  obtain ⟨s, c, hc⟩ := g
  obtain ⟨s', c', hc'⟩ := g'
  obtain rfl : s = s' := hs
  have : c = c' := by
    apply Array.ext_getElem?
    intro i
    by_cases hi : i < s.area
    · have hin := Size.contains_mod_div hi
      have := h (i % s.width) (i / s.width)
      simpa [get?, hin, Size.index_mod_div] using this
    · rw [Array.getElem?_eq_none (by omega), Array.getElem?_eq_none (by omega)]
  subst this
  rfl

end Grid

end ScannedPage
