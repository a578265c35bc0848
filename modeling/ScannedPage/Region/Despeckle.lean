import ScannedPage.Region.Labeling

/-!
# Despeckling

A speck is a black component whose bounding box is shorter, on its shorter side, than a threshold.
The threshold belongs to a policy at 300 dots per inch, follows the resolution of the page and never
falls below two pixels, so a single pixel is always a speck unless the policy keeps everything.
-/

namespace ScannedPage

/-- How much is taken for a speck. -/
inductive DespecklePolicy
  /-- Nothing. -/
  | off
  | cautious
  | normal
  | aggressive
deriving DecidableEq, Repr

namespace DespecklePolicy

/-- Unless said otherwise, the middle policy applies. -/
instance : Inhabited DespecklePolicy := ⟨normal⟩

/-- The shortest side that is kept at 300 dots per inch; nothing is removed without one. -/
def baseThreshold? : DespecklePolicy → Option Nat
  | off => none
  | cautious => some 2
  | normal => some 3
  | aggressive => some 5

/-- The shortest side that is kept at a resolution: in proportion, rounded, and at least two. -/
def threshold? (p : DespecklePolicy) (r : Resolution) : Option Nat :=
  p.baseThreshold?.map fun base => max (lengthAt r.minAxis base) 2

end DespecklePolicy

namespace Region

/-- What a despeckling found and removed. -/
structure DespeckleReport where
  /-- The shortest side kept, if the policy removes anything. -/
  threshold : Option Nat
  components : Nat
  removed : Nat
  removedPixels : Nat
deriving DecidableEq, Repr

/-- The report of a page on which nothing was looked for. -/
def DespeckleReport.none : DespeckleReport := ⟨.none, 0, 0, 0⟩

/-- The component is a speck under a threshold. -/
def Component.isSpeck (threshold : Nat) (k : Component) : Bool := decide (k.bounds.minDimension < threshold)

/-- The label belongs to a speck. -/
def Labeling.isSpeckLabel (l : Labeling) (threshold label : Nat) : Bool :=
  label != 0 && (l.components[label - 1]?.map (Component.isSpeck threshold)).getD false

/-- Removes the specks of a bilevel page as seen at a resolution, and reports on them. -/
def despeckle (r : Raster) (policy : DespecklePolicy) (resolution : Resolution) :
    Except RegionError (Raster × DespeckleReport) := do
  require .bit1 r
  match policy.threshold? resolution with
  | none => return (r, .none)
  | some threshold =>
    let labeling ← labelBilevel r .eightWay
    let specks := labeling.components.filter (Component.isSpeck threshold)
    let cleaned := Raster.ofFn .bit1 r.resolution r.size fun x y =>
      if labeling.isSpeckLabel threshold (labeling.labelAt x y) then 0 else r.word x y
    return (cleaned, ⟨some threshold, labeling.count, specks.size,
      specks.foldl (fun n k => n + k.pixelCount) 0⟩)

end Region

end ScannedPage
