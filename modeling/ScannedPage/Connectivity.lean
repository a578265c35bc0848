import ScannedPage.Grid

/-!
# Neighbouring pixels

Two pixels are neighbours when they share a side (four-way) or at least a corner (eight-way). The
neighbours that a scan from the top left to the bottom right has already passed are the causal
ones; these and their opposites make up all neighbours (`mem_offsets_iff`).
-/

namespace ScannedPage

/-- Which pixels count as neighbours. -/
inductive Connectivity
  | fourWay
  | eightWay
deriving DecidableEq, Repr

namespace Connectivity

/-- Unless said otherwise, pixels that touch at a corner are neighbours. -/
instance : Inhabited Connectivity := ⟨eightWay⟩

/-- The steps to the neighbours that a raster scan has already passed. -/
def causalOffsets : Connectivity → List (Int × Int)
  | fourWay => [(-1, 0), (0, -1)]
  | eightWay => [(-1, 0), (-1, -1), (0, -1), (1, -1)]

/-- The steps to all neighbours. -/
def offsets : Connectivity → List (Int × Int)
  | fourWay => [(-1, 0), (1, 0), (0, -1), (0, 1)]
  | eightWay => [(-1, -1), (0, -1), (1, -1), (-1, 0), (1, 0), (-1, 1), (0, 1), (1, 1)]

/-- The steps to the neighbours that a raster scan has not reached yet. -/
def anticausalOffsets (c : Connectivity) : List (Int × Int) :=
  c.causalOffsets.map fun d => (-d.1, -d.2)

/-- The steps of a connectivity are the causal ones and their opposites. -/
theorem mem_offsets_iff (c : Connectivity) (d : Int × Int) :
    d ∈ c.offsets ↔ d ∈ c.causalOffsets ∨ d ∈ c.anticausalOffsets := by
  cases c <;> simp [offsets, causalOffsets, anticausalOffsets] <;> grind

end Connectivity

/-- The position one step away, if it lies inside. -/
def Size.step? (s : Size) (x y : Nat) (d : Int × Int) : Option (Nat × Nat) :=
  let x' := (x : Int) + d.1
  let y' := (y : Int) + d.2
  if 0 ≤ x' ∧ 0 ≤ y' ∧ x' < s.width ∧ y' < s.height then some (x'.toNat, y'.toNat) else none

end ScannedPage
