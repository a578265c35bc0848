import ScannedPage.Connectivity
import ScannedPage.Mask
import ScannedPage.Region.Error
import ScannedPage.Region.UnionFind

/-!
# Connected components of a mask

Two scans label the selected pixels. The first gives each pixel the label of a neighbour already
passed, or a new one, and joins the classes of all labels it meets around the pixel. The second
replaces each label by the number of its class, counted in the order of first appearance, and
gathers the size and the bounding box of every component. Label zero belongs to no component.

Sides and positions are natural numbers here. `ScannedPage.Proofs.Region.InWords` has the same scans over words of
32 bits with a sign: in every mask that fits such words they agree with these, and in a larger one they end with a
fault or pass no pixel.
-/

namespace ScannedPage.Region

/-- A component: its label, the number of its pixels, and the smallest rectangle around them. -/
structure Component where
  label : Nat
  pixelCount : Nat
  bounds : Rect
deriving DecidableEq, Repr

/-- The label of every pixel, and the components in the order of their labels. -/
structure Labeling where
  labels : Grid Nat
  components : Array Component

namespace Labeling

/-- The label at a position; zero outside the image. -/
def labelAt (l : Labeling) (x y : Nat) : Nat := l.labels.getD x y 0

/-- The number of components. -/
def count (l : Labeling) : Nat := l.components.size

/-- The labelling has no component. -/
def isEmpty (l : Labeling) : Bool := l.components.isEmpty

end Labeling

/-- Provisional labels in the middle of the first scan, and their classes. -/
structure Provisional where
  labels : Grid Nat
  classes : UnionFind

/-- The first label met around a pixel, with the classes of all further labels joined to it. -/
def mergeNear (labels : Grid Nat) (steps : List (Int × Int)) (x y : Nat) (classes : UnionFind) :
    Nat × UnionFind :=
  steps.foldl (fun (label, classes) d =>
    match labels.size.step? x y d with
    | none => (label, classes)
    | some (x', y') =>
      let near := labels.getD x' y' 0
      if near = 0 then (label, classes)
      else if label = 0 then (near, classes)
      else if near = label then (label, classes)
      else (label, classes.union label near)) (0, classes)

/-- Labels one selected pixel. -/
def Provisional.visit (c : Connectivity) (x y : Nat) (p : Provisional) : Provisional :=
  let ⟨labels, classes⟩ := p
  let (label, classes) := mergeNear labels c.causalOffsets x y classes
  if label = 0 then
    let (fresh, classes) := classes.makeSet
    ⟨labels.set x y fresh, classes⟩
  else ⟨labels.set x y label, classes⟩

/-- The first scan. -/
def provisionalLabels (m : Mask) (c : Connectivity) : Provisional :=
  Nat.fold m.size.area (fun i _ p =>
    let x := i % m.size.width
    let y := i / m.size.width
    if m.get x y then p.visit c x y else p) ⟨Grid.filled m.size 0, .initial⟩

/-- The second scan in the middle: classes, the number of each root met so far, components and labels. -/
structure Numbering where
  classes : UnionFind
  numbers : Array Nat
  components : Array Component
  labels : Grid Nat

/-- One more pixel for a component. -/
def Component.add (k : Component) (x y : Nat) : Component :=
  { k with pixelCount := k.pixelCount + 1, bounds := k.bounds.union (.pixel x y) }

/-- Numbers one pixel with a provisional label; a root met for the first time opens a component. -/
def Numbering.visit (provisional x y : Nat) (n : Numbering) : Numbering :=
  let ⟨classes, numbers, components, labels⟩ := n
  let (root, classes) := classes.find provisional
  let (number, numbers, components) :=
    if numbers.getD root 0 = 0 then
      let number := components.size + 1
      (number, numbers.setIfInBounds root number, components.push ⟨number, 0, .pixel x y⟩)
    else (numbers.getD root 0, numbers, components)
  ⟨classes, numbers, components.modify (number - 1) (·.add x y), labels.set x y number⟩

/-- The connected components of the selected pixels. -/
def labelMask (m : Mask) (c : Connectivity) : Labeling :=
  let p := provisionalLabels m c
  let n := Nat.fold m.size.area (fun i _ (n : Numbering) =>
    let x := i % m.size.width
    let y := i / m.size.width
    let provisional := p.labels.getD x y 0
    if provisional = 0 then n else n.visit provisional x y)
    ⟨p.classes, Array.replicate p.classes.parents.size 0, #[], Grid.filled m.size 0⟩
  ⟨n.labels, n.components⟩

/-- The connected components of the black pixels of a bilevel page. -/
def labelBilevel (r : Raster) (c : Connectivity) : Except RegionError Labeling := do
  require .bit1 r
  return labelMask (← r.toMask.mapError .image) c

end ScannedPage.Region
