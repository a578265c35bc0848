import ScannedPage.Raster.Basic
import ScannedPage.Rect

/-!
# Masks

A mask says of every position of an image whether it is selected. It reads as unselected outside,
and two masks combine only if their sizes agree.
-/

namespace ScannedPage

/-- A selection of the positions of an image. -/
abbrev Mask := Grid Bool

namespace Mask

/-- The position is selected; none outside is. -/
@[inline]
def get (m : Mask) (x y : Nat) : Bool := m.getD x y false

/-- The mask with the same value everywhere. -/
def filled (width height : Nat) (value : Bool) : Except ImageError Mask := do
  let s ← Size.ofSides width height
  return Grid.filled s value

/-- The mask that selects nothing. -/
def empty (s : Size) : Mask := Grid.filled s false

/-- Bits in row-major order as a mask, refused when their number does not fit. -/
def ofBits (width height : Nat) (bits : Array Bool) : Except ImageError Mask := do
  let s ← Size.ofSides width height
  match Grid.ofCells? s bits with
  | some m => return m
  | none => throw (.bufferLength s.area bits.size)

/-- The mask of a predicate on positions. -/
@[inline]
def ofFn (s : Size) (p : Nat → Nat → Bool) : Mask := Grid.ofFn s p

/-- Every position inside the rectangle gets the value; the rectangle may reach beyond the mask. -/
def fillRect (m : Mask) (r : Rect) (value : Bool) : Mask :=
  match r.intersect ⟨0, 0, m.size.width, m.size.height⟩ with
  | none => m
  | some c => ofFn m.size fun x y => if c.contains x y then value else m.get x y

/-- The number of selected positions. -/
def count (m : Mask) : Nat := m.cells.foldl (fun n b => if b then n + 1 else n) 0

/-- Nothing is selected. -/
def isEmpty (m : Mask) : Bool := m.cells.all (! ·)

/-- Accepts masks of the expected sides only. -/
def checkSides (m : Mask) (expected : Nat × Nat) : Except ImageError Unit :=
  if m.size.sides = expected then .ok () else .error (.dimensionMismatch expected m.size.sides)

/-- Position by position, two masks of one size under a rule; refused when the sizes differ. -/
@[inline]
def combine (rule : Bool → Bool → Bool) (a b : Mask) : Except ImageError Mask := do
  checkSides b a.size.sides
  return ofFn a.size fun x y => rule (a.get x y) (b.get x y)

/-- Selected in one of both. -/
def or (a b : Mask) : Except ImageError Mask := combine (· || ·) a b

/-- Selected in both. -/
def and (a b : Mask) : Except ImageError Mask := combine (· && ·) a b

/-- Selected in the first and not in the second. -/
def andNot (a b : Mask) : Except ImageError Mask := combine (fun p q => p && !q) a b

/-- Exactly the positions that are not selected. -/
def invert (m : Mask) : Mask := m.map (! ·)

/-- The smallest rectangle around two, where the first may be missing. -/
def growBounds (bounds : Option Rect) (x y : Nat) : Option Rect :=
  match bounds with
  | none => some (.pixel x y)
  | some r => some (r.union (.pixel x y))

/-- The smallest rectangle around the selected positions, if there are any. -/
def bounds (m : Mask) : Option Rect :=
  Nat.fold m.size.area (fun i _ b =>
    let x := i % m.size.width
    let y := i / m.size.width
    if m.get x y then growBounds b x y else b) none

end Mask

end ScannedPage
