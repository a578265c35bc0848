import ScannedPage.Mask

/-!
# Gray histograms

How many pixels of a page show each of the 256 gray levels, over the whole page or where a mask
selects.
-/

namespace ScannedPage

/-- The number of pixels at each of the levels `0 … 255`. -/
structure Histogram where
  bins : Array Nat
  size_bins : bins.size = 256

namespace Histogram

/-- No pixel at all. -/
def empty : Histogram := ⟨Array.replicate 256 0, Array.size_replicate⟩

/-- The histogram of a function of the level. -/
def ofFn (f : Nat → Nat) : Histogram := ⟨Array.ofFn fun i : Fin 256 => f i.val, Array.size_ofFn⟩

/-- The number of pixels at a level; no pixel has a level above 255. -/
def count (h : Histogram) (level : Nat) : Nat := h.bins.getD level 0

/-- One more pixel at a level. -/
def add (h : Histogram) (level : Nat) : Histogram :=
  ⟨h.bins.modify level (· + 1), by rw [Array.size_modify, h.size_bins]⟩

/-- The histogram of the selected positions of a gray raster. -/
def ofRasterWhere (r : Raster) (selected : Nat → Nat → Bool) : Histogram :=
  Nat.fold r.size.area (fun i _ h =>
    let x := i % r.width
    let y := i / r.width
    if selected x y then h.add (r.word x y % 256) else h) empty

/-- The histogram of a gray raster, under a mask of the same size if one is given. -/
def ofRaster (r : Raster) (mask : Option Mask) : Except ImageError Histogram := do
  r.requireFormat .gray8
  match mask with
  | none => return ofRasterWhere r fun _ _ => true
  | some m =>
    m.checkSides r.size.sides
    return ofRasterWhere r m.get

/-- The number of pixels at a level, refused beyond the last level. -/
def get (h : Histogram) (level : Nat) : Except ImageError Nat :=
  if level < 256 then .ok (h.count level) else .error (.indexOutOfBounds level 256)

/-- The number of pixels below a level. -/
def countBelow (h : Histogram) : Nat → Nat
  | 0 => 0
  | n + 1 => h.countBelow n + h.count n

/-- The sum of the levels of the pixels below a level. -/
def sumBelow (h : Histogram) : Nat → Nat
  | 0 => 0
  | n + 1 => h.sumBelow n + h.count n * n

/-- The number of all pixels. -/
def total (h : Histogram) : Nat := h.countBelow 256

/-- The sum of the levels of all pixels. -/
def weightedSum (h : Histogram) : Nat := h.sumBelow 256

end Histogram

end ScannedPage
