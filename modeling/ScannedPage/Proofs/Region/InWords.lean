import ScannedPage.Proofs.Raster
import ScannedPage.Proofs.Region.Paths
import ScannedPage.Proofs.Scanning
import ScannedPage.Region.Labeling

/-!
# Labelling in words

The two scans of a labelling count in words with a sign, and read the mask and write the labels at places that they
compute in such words. In an image that fits, this gives the labelling of all positions (`labelInWords?_eq_some`).

In an image that does not fit, nothing is labelled. If its sides fit, the first scan ends with a fault
(`labelInWords?_eq_none`), and with a side of half the range or more no pixel is found
(`labelInWords?_of_long_side`).
-/

namespace ScannedPage.Region

/-- The first label met around a pixel, read at its place, with the classes of all further labels joined to it. The
neighbours already passed are never below the last row, so that testing this changes nothing. -/
def mergeNear? (labels : Grid Nat) (steps : List (Int × Int)) (x y : Int) (classes : UnionFind) :
    Option (Nat × UnionFind) :=
  steps.foldlM (fun (label, classes) d => do
    match ← labels.size.near? x y d with
    | none => return (label, classes)
    | some place =>
      let near ← labels.readAt? place
      if near = 0 then return (label, classes)
      else if label = 0 then return (near, classes)
      else if near = label then return (label, classes)
      else return (label, classes.union label near)) (0, classes)

/-- Labels one pixel at its place, if the mask selects it. -/
def Provisional.visit? (m : Mask) (c : Connectivity) (p : Provisional) (q : Int × Int) : Option Provisional := do
  let place ← m.size.place? q.1 q.2
  if ← m.readAt? place then
    let (label, classes) ← mergeNear? p.labels c.causalOffsets q.1 q.2 p.classes
    if label = 0 then
      let (fresh, classes) := classes.makeSet
      return ⟨← p.labels.writeAt? place fresh, classes⟩
    else return ⟨← p.labels.writeAt? place label, classes⟩
  else return p

/-- Numbers one pixel at its place, if it has a provisional label. -/
def Numbering.visit? (provisional : Grid Nat) (n : Numbering) (q : Int × Int) : Option Numbering := do
  let place ← provisional.size.place? q.1 q.2
  let label ← provisional.readAt? place
  if label = 0 then return n
  else
    let (root, classes) := n.classes.find label
    let (number, numbers, components) :=
      if n.numbers.getD root 0 = 0 then
        let number := n.components.size + 1
        (number, n.numbers.setIfInBounds root number, n.components.push ⟨number, 0, .pixel q.1.toNat q.2.toNat⟩)
      else (n.numbers.getD root 0, n.numbers, n.components)
    return ⟨classes, numbers, components.modify (number - 1) (·.add q.1.toNat q.2.toNat),
      ← n.labels.writeAt? place number⟩

/-- The connected components of the selected pixels, by scans in words. -/
def labelInWords? (m : Mask) (c : Connectivity) : Option Labeling := do
  let p ← m.size.scanOrder.foldlM (Provisional.visit? m c) ⟨Grid.filled m.size 0, .initial⟩
  let n ← m.size.scanOrder.foldlM (Numbering.visit? p.labels)
    ⟨p.classes, Array.replicate p.classes.parents.size 0, #[], Grid.filled m.size 0⟩
  return ⟨n.labels, n.components⟩

/-- The connected components of the black pixels of a bilevel page, by scans in words. -/
def labelBilevelInWords? (r : Raster) (c : Connectivity) : Option (Except RegionError Labeling) := ExceptT.run do
  require .bit1 r
  let m ← r.toMask.mapError RegionError.image
  return ← labelInWords? m c

section Fitting

variable {m : Mask} {c : Connectivity} {labels : Grid Nat} {steps : List (Int × Int)} {x y : Nat}

/-- In an image that fits, the labels around a pixel are read without fault. -/
theorem mergeNear?_eq_some (hs : labels.size.FitsInt32) (h : labels.size.Contains x y)
    (hsteps : ∀ d ∈ steps, IsUnitStep d) (classes : UnionFind) :
    mergeNear? labels steps x y classes = some (mergeNear labels steps x y classes) := by
  unfold mergeNear? mergeNear
  generalize ((0, classes) : Nat × UnionFind) = met
  induction steps generalizing met with
  | nil => rfl
  | cons d steps ih =>
    have hrest := ih fun e he => hsteps e (List.mem_cons_of_mem d he)
    rw [List.foldlM_cons, Size.near?_eq_some hs h (hsteps d List.mem_cons_self), List.foldl_cons]
    cases hd : labels.size.step? x y d with
    | none => exact hrest met
    | some q =>
      have hread := Grid.readAt?_eq_some (Size.step?_eq_some_iff.mp hd).1 0
      simp only [Option.map_some, Option.bind_eq_bind, Option.bind_some, hread]
      -- the label met so far and the one read decide in the same way on both sides
      split
      · exact hrest _
      · split
        · exact hrest _
        · split <;> exact hrest _

/-- In an image that fits, the first scan labels every pixel at its place without fault. -/
theorem Provisional.visitsInside_visit? (hs : m.size.FitsInt32) :
    VisitsInside m.size (fun p : Provisional => p.labels.size = m.size) (Provisional.visit? m c)
      (fun x y p => if m.get x y then p.visit c x y else p) := by
  intro x y hxy p hsize
  have hin : p.labels.size.Contains x y := hsize ▸ hxy
  have hwrite (label : Nat) : p.labels.writeAt? (m.size.index x y) label = some (p.labels.set x y label) :=
    hsize ▸ Grid.writeAt?_eq_some hin label
  have hmerge := mergeNear?_eq_some (hsize ▸ hs) hin c.isUnitStep_causalOffsets p.classes
  simp only [visit?, Size.place?_eq_some hs hxy, Grid.readAt?_eq_some hxy false, Option.bind_eq_bind,
    Option.bind_some, Mask.get]
  by_cases hselected : m.getD x y false = true
  · simp only [hselected, if_true, hmerge, Option.bind_some, visit, hwrite]
    split
    · exact ⟨rfl, (Grid.size_set ..).trans hsize⟩
    · exact ⟨rfl, (Grid.size_set ..).trans hsize⟩
  · simp only [hselected]
    exact ⟨rfl, hsize⟩

/-- In an image that fits, the second scan numbers every pixel at its place without fault. -/
theorem Numbering.visitsInside_visit? {provisional : Grid Nat} (hs : provisional.size.FitsInt32) :
    VisitsInside provisional.size (fun n : Numbering => n.labels.size = provisional.size)
      (Numbering.visit? provisional) (fun x y n =>
        if provisional.getD x y 0 = 0 then n else n.visit (provisional.getD x y 0) x y) := by
  intro x y hxy n hsize
  have hin : n.labels.size.Contains x y := hsize ▸ hxy
  have hwrite (number : Nat) : n.labels.writeAt? (provisional.size.index x y) number =
      some (n.labels.set x y number) :=
    hsize ▸ Grid.writeAt?_eq_some hin number
  simp only [visit?, Size.place?_eq_some hs hxy, Grid.readAt?_eq_some hxy 0, Option.bind_eq_bind, Option.bind_some]
  split
  · exact ⟨rfl, hsize⟩
  · simp only [visit, hwrite, Option.bind_some, Int.toNat_natCast]
    exact ⟨rfl, (Grid.size_set ..).trans hsize⟩

/-- In an image that fits, the labelling in words is the labelling. -/
theorem labelInWords?_eq_some (hs : m.size.FitsInt32) (c : Connectivity) :
    labelInWords? m c = some (labelMask m c) := by
  have hfirst : m.size.scanOrder.foldlM (Provisional.visit? m c) ⟨Grid.filled m.size 0, .initial⟩ =
      some (provisionalLabels m c) ∧ (provisionalLabels m c).labels.size = m.size :=
    foldlM_scanOrder hs (Provisional.visitsInside_visit? hs) rfl
  obtain ⟨hfirst, hsize⟩ := hfirst
  have hsecond := foldlM_scanOrder (hsize.symm ▸ hs) (Numbering.visitsInside_visit? (hsize.symm ▸ hs))
    (a := ⟨(provisionalLabels m c).classes, Array.replicate (provisionalLabels m c).classes.parents.size 0, #[],
      Grid.filled m.size 0⟩) hsize.symm
  rw [hsize] at hsecond
  rw [labelInWords?, hfirst, Option.bind_eq_bind, Option.bind_some, hsecond.1]
  rfl

/-- In an image that fits, the labelling of a bilevel page in words is its labelling. -/
theorem labelBilevelInWords?_eq_some {r : Raster} (hs : r.size.FitsInt32) (c : Connectivity) :
    labelBilevelInWords? r c = some (labelBilevel r c) := by
  refine run_bind_eq_some rfl fun _ _ => run_bind_eq_some rfl fun m hm => ?_
  have hsize : m.size = r.size := Raster.size_of_toMask (mapError_eq_ok.mp hm)
  rw [labelInWords?_eq_some (hsize ▸ hs)]
  rfl

end Fitting

section Beyond

variable {m : Mask} {c : Connectivity}

/-- If the sides of an image fit and its area does not, its labelling ends with a fault. -/
theorem labelInWords?_eq_none (c : Connectivity) (hwidth : m.size.width < 2147483648)
    (hheight : m.size.height < 2147483648) (harea : 2147483648 < m.size.area) : labelInWords? m c = none := by
  have hvisit (q : Int × Int) (hq : m.size.place? q.1 q.2 = none) (p : Provisional) :
      Provisional.visit? m c p q = none := by
    rw [Provisional.visit?, hq]
    rfl
  rw [labelInWords?, foldlM_scanOrder_eq_none hwidth hheight harea hvisit]
  rfl

/-- With a side of half the range or more, no pixel is labelled and no component found. -/
theorem labelInWords?_of_long_side (c : Connectivity) (hwidth : IsNat32 m.size.width)
    (hheight : IsNat32 m.size.height) (hlong : 2147483648 ≤ m.size.width ∨ 2147483648 ≤ m.size.height) :
    labelInWords? m c = some ⟨Grid.filled m.size 0, #[]⟩ := by
  rw [labelInWords?, Size.scanOrder_eq_nil hwidth hheight hlong]
  rfl

end Beyond

end ScannedPage.Region
