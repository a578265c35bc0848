import ScannedPage.Proofs.Morphology
import ScannedPage.Proofs.Region.Paths
import ScannedPage.Proofs.Scanning

/-!
# Reconstruction in words

The two scans of a reconstruction count in words with a sign, and read and write the levels at places that they
compute in such words. In an image that fits, this gives what the reconstruction over all positions gives
(`reconstructInWords?_eq_some`), and so does the filling of holes built on it (`fillHolesInWords?_eq_some`).

In an image that does not fit, there is no reconstruction. If its sides fit, the first scan ends with a fault
(`reconstructInWords?_eq_none`). With a side of half the range or more the scans pass no pixel, and the marker cut
off at the mask is taken to be at rest (`reconstructInWords?_of_long_side`).
-/

namespace ScannedPage.Morphology

/-- The highest level among a pixel and the inside neighbours at the given steps, each read at its place. -/
def highestNear? (levels : Grid Nat) (steps : List (Int × Int)) (x y : Int) (level : Nat) : Option Nat :=
  steps.foldlM (fun best d => do
    match ← levels.size.near? x y d with
    | some place => return max best (← levels.readAt? place)
    | none => return best) level

/-- Raises one pixel to its highest neighbour, as far as the cap allows, at its place in both arrays. -/
def Sweep.propagate? (caps : Grid Nat) (steps : List (Int × Int)) (s : Sweep) (p : Int × Int) : Option Sweep := do
  let place ← caps.size.place? p.1 p.2
  let level ← s.levels.readAt? place
  let cap ← caps.readAt? place
  if level = cap then return s
  else
    let raised := min (← highestNear? s.levels steps p.1 p.2 level) cap
    if level < raised then return ⟨← s.levels.writeAt? place raised, true⟩ else return s

/-- One iteration in words: a scan to the bottom right, and one back. -/
def iterate? (caps : Grid Nat) (c : Connectivity) (levels : Grid Nat) : Option Sweep := do
  let s ← caps.size.scanOrder.foldlM (Sweep.propagate? caps c.causalOffsets) ⟨levels, false⟩
  caps.size.scanOrder.reverse.foldlM (Sweep.propagate? caps c.anticausalOffsets) s

/-- The levels after at most `fuel` further iterations in words, with rest reached or not, and the iterations in
all. -/
def grow? (caps : Grid Nat) (c : Connectivity) : Nat → Nat → Grid Nat → Option (Grid Nat × Bool × Nat)
  | 0, done, levels => some (levels, false, done)
  | fuel + 1, done, levels => do
    let s ← iterate? caps c levels
    if s.changed then grow? caps c fuel (done + 1) s.levels else return (s.levels, true, done + 1)

/-- The reconstruction of a marker under a mask of the same size in words, with at most `limit` iterations. -/
def reconstructInWords? (marker mask : Raster) (c : Connectivity) (limit : Nat) :
    Option (Except MorphologyError Reconstruction) := ExceptT.run do
  require .gray8 marker
  require .gray8 mask
  (mask.checkSides marker.size.sides).mapError MorphologyError.image
  if limit = 0 then throw .noIterations
  let caps := mask.pixels.map (· % 256)
  let (levels, converged, iterations) ← grow? caps c limit 0 (seed marker.pixels caps)
  return ⟨⟨.gray8, marker.resolution, levels⟩, converged, iterations⟩

/-- The filling of holes over a reconstruction in words. -/
def fillHolesInWords? (r : Raster) (c : Connectivity) : Option (Except MorphologyError Reconstruction) :=
  ExceptT.run do
  require .gray8 r
  let inverted ← r.invert.mapError MorphologyError.image
  let marker := Raster.ofFn .gray8 r.resolution r.size fun x y =>
    if onBorder r.size x y then inverted.word x y else 0
  let grown ← ExceptT.mk <| reconstructInWords? marker inverted c (iterationLimit marker.width marker.height)
  return { grown with image := ← grown.image.invert.mapError MorphologyError.image }

section Fitting

variable {caps levels : Grid Nat} {c : Connectivity} {steps : List (Int × Int)} {x y : Nat}

/-- In an image that fits, the levels around a pixel are read without fault. -/
theorem highestNear?_eq_some (hs : levels.size.FitsInt32) (h : levels.size.Contains x y)
    (hsteps : ∀ d ∈ steps, IsUnitStep d) (level : Nat) :
    highestNear? levels steps x y level = some (highestNear levels steps x y level) := by
  induction steps generalizing level with
  | nil => rfl
  | cons d steps ih =>
    have hrest (level : Nat) := ih (fun e he => hsteps e (List.mem_cons_of_mem d he)) level
    rw [highestNear?, List.foldlM_cons, Size.near?_eq_some hs h (hsteps d List.mem_cons_self), highestNear,
      List.foldl_cons]
    cases hd : levels.size.step? x y d with
    | none => exact hrest level
    | some q =>
      have hread := Grid.readAt?_eq_some (Size.step?_eq_some_iff.mp hd).1 0
      simp only [Option.map_some, Option.bind_eq_bind, Option.bind_some, hread]
      exact hrest _

/-- In an image that fits, every pixel is raised at its place without fault, and the levels keep the size. -/
theorem Sweep.visitsInside_propagate? (hs : caps.size.FitsInt32) (hsteps : ∀ d ∈ steps, IsUnitStep d) :
    VisitsInside caps.size (fun s : Sweep => s.levels.size = caps.size) (Sweep.propagate? caps steps)
      (fun x y s => s.propagate caps steps x y) := by
  intro x y hxy s hsize
  refine ⟨?_, (Sweep.size_propagate ..).trans hsize⟩
  have hin : s.levels.size.Contains x y := hsize ▸ hxy
  have hread : s.levels.readAt? (caps.size.index x y) = some (s.levels.getD x y 0) :=
    hsize ▸ Grid.readAt?_eq_some hin 0
  have hwrite (raised : Nat) : s.levels.writeAt? (caps.size.index x y) raised = some (s.levels.set x y raised) :=
    hsize ▸ Grid.writeAt?_eq_some hin raised
  simp only [propagate?, propagate, Size.place?_eq_some hs hxy, hread, hwrite, Grid.readAt?_eq_some hxy 0,
    highestNear?_eq_some (hsize ▸ hs) hin hsteps, Option.bind_eq_bind, Option.bind_some]
  split
  · rfl
  · split <;> rfl

/-- In an image that fits, the scan forward is without fault. -/
theorem Sweep.forward_in_words (hs : caps.size.FitsInt32) {s : Sweep} (hsize : s.levels.size = caps.size) :
    caps.size.scanOrder.foldlM (Sweep.propagate? caps c.causalOffsets) s = some (s.forward caps c) :=
  (foldlM_scanOrder hs (visitsInside_propagate? hs c.isUnitStep_causalOffsets) hsize).1

/-- In an image that fits, the scan backward is without fault. -/
theorem Sweep.backward_in_words (hs : caps.size.FitsInt32) {s : Sweep} (hsize : s.levels.size = caps.size) :
    caps.size.scanOrder.reverse.foldlM (Sweep.propagate? caps c.anticausalOffsets) s = some (s.backward caps c) :=
  (foldlM_scanOrder_reverse hs (visitsInside_propagate? hs c.isUnitStep_anticausalOffsets) hsize).1

/-- In an image that fits, an iteration is without fault. -/
theorem iterate?_eq_some (hs : caps.size.FitsInt32) (hsize : levels.size = caps.size) :
    iterate? caps c levels = some (iterate caps c levels) := by
  have hkept : (Sweep.forward caps c ⟨levels, false⟩).levels.size = caps.size :=
    (Sweep.size_forward ..).trans hsize
  rw [iterate?, Sweep.forward_in_words hs hsize, Option.bind_eq_bind, Option.bind_some,
    Sweep.backward_in_words hs hkept, iterate]

/-- In an image that fits, a growth is without fault. -/
theorem grow?_eq_some (hs : caps.size.FitsInt32) (hsize : levels.size = caps.size) (fuel done : Nat) :
    grow? caps c fuel done levels = some (grow caps c fuel done levels) := by
  induction fuel generalizing done levels with
  | zero => rfl
  | succ fuel ih =>
    have hnext : (iterate caps c levels).levels.size = caps.size := by
      rw [iterate, Sweep.size_backward, Sweep.size_forward]
      exact hsize
    rw [grow?, iterate?_eq_some hs hsize, grow]
    simp only [Option.bind_eq_bind, Option.bind_some]
    split
    · exact ih hnext (done + 1)
    · rfl

end Fitting

section Reconstructing

variable {marker mask : Raster} {limit : Nat}

/-- In an image that fits, the reconstruction in words is the reconstruction. -/
theorem reconstructInWords?_eq_some (hs : mask.size.FitsInt32) (c : Connectivity) :
    reconstructInWords? marker mask c limit = some (reconstructWithin marker mask c limit) := by
  refine run_bind_eq_some rfl fun _ _ => run_bind_eq_some rfl fun _ _ => run_bind_eq_some rfl fun _ hsides => ?_
  have hsize : (seed marker.pixels (mask.pixels.map (· % 256))).size = (mask.pixels.map (· % 256)).size :=
    (Raster.size_eq_of_checkSides (mapError_eq_ok.mp hsides)).symm
  have hfits : (mask.pixels.map (· % 256)).size.FitsInt32 := hs
  by_cases hlimit : limit = 0
  · simp only [hlimit, if_true]
    rfl
  · simp only [hlimit, if_false, grow?_eq_some hfits hsize]
    rfl

/-- The reconstruction in words of gray pages is the growth in words, if it may start. -/
theorem reconstructInWords?_eq_map {s : Size} (hmarker : IsGray s marker) (hmask : IsGray s mask)
    (hlimit : 0 < limit)
    (c : Connectivity) : reconstructInWords? marker mask c limit =
      (grow? (mask.pixels.map (· % 256)) c limit 0
        (seed marker.pixels (mask.pixels.map (· % 256)))).map fun grown =>
        .ok ⟨⟨.gray8, marker.resolution, grown.1⟩, grown.2.1, grown.2.2⟩ := by
  have hsides : mask.checkSides marker.size.sides = .ok () :=
    Raster.checkSides_eq_ok (hmask.2.trans hmarker.2.symm)
  simp only [reconstructInWords?, require_eq_ok hmarker.1, require_eq_ok hmask.1, hsides, Nat.ne_of_gt hlimit,
    if_false]
  cases grow? (mask.pixels.map (· % 256)) c limit 0 (seed marker.pixels (mask.pixels.map (· % 256))) <;> rfl

/-- If the sides of an image fit and its area does not, its reconstruction ends with a fault. -/
theorem reconstructInWords?_eq_none {s : Size} (hmarker : IsGray s marker) (hmask : IsGray s mask)
    (hlimit : 0 < limit) (c : Connectivity) (hwidth : s.width < 2147483648) (hheight : s.height < 2147483648)
    (harea : 2147483648 < s.area) :
    reconstructInWords? marker mask c limit = none := by
  obtain rfl : mask.pixels.size = s := hmask.2
  obtain ⟨fuel, rfl⟩ : ∃ fuel, limit = fuel + 1 := ⟨limit - 1, by omega⟩
  rw [reconstructInWords?_eq_map hmarker hmask hlimit, grow?, iterate?]
  have hvisit (p : Int × Int) (hp : mask.pixels.size.place? p.1 p.2 = none) (t : Sweep) :
      Sweep.propagate? (mask.pixels.map (· % 256)) c.causalOffsets t p = none := by
    rw [Sweep.propagate?, Grid.size_map, hp]
    rfl
  rw [Grid.size_map, foldlM_scanOrder_eq_none hwidth hheight harea hvisit]
  rfl

/-- With a side of half the range or more, the marker cut off at the mask is taken to be at rest at once. -/
theorem reconstructInWords?_of_long_side {s : Size} (hmarker : IsGray s marker) (hmask : IsGray s mask)
    (hlimit : 0 < limit) (c : Connectivity) (hwidth : IsNat32 s.width) (hheight : IsNat32 s.height)
    (hlong : 2147483648 ≤ s.width ∨ 2147483648 ≤ s.height) :
    reconstructInWords? marker mask c limit =
      some (.ok ⟨⟨.gray8, marker.resolution, seed marker.pixels (mask.pixels.map (· % 256))⟩, true, 1⟩) := by
  obtain rfl : mask.pixels.size = s := hmask.2
  obtain ⟨fuel, rfl⟩ : ∃ fuel, limit = fuel + 1 := ⟨limit - 1, by omega⟩
  rw [reconstructInWords?_eq_map hmarker hmask hlimit, grow?, iterate?, Grid.size_map,
    Size.scanOrder_eq_nil hwidth hheight hlong]
  rfl

/-- In an image that fits, the filling in words is the filling. -/
theorem fillHolesInWords?_eq_some {r : Raster} (hs : r.size.FitsInt32) (c : Connectivity) :
    fillHolesInWords? r c = some (fillHoles r c) := by
  refine run_bind_eq_some rfl fun _ _ => run_bind_eq_some rfl fun inverted hinverted => ?_
  have hsize : inverted.size = r.size := Raster.size_of_invert (mapError_eq_ok.mp hinverted)
  refine run_bind_eq_some (reconstructInWords?_eq_some (hsize ▸ hs) c) fun grown _ => ?_
  exact run_bind_eq_some rfl fun image _ => rfl

end Reconstructing

end ScannedPage.Morphology
