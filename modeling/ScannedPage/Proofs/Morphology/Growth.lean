import ScannedPage.Proofs.Morphology.Geodesic
import ScannedPage.Proofs.Morphology.InWords

/-!
# Growth round by round

The levels of a growth only rise. A pixel that is raised gets the higher one of its own level and of what the mask
lets through from the neighbours that are looked at (`Sweep.getD_propagate`), and everything about an iteration
follows from that: no level falls (`below_iterate`), higher levels give higher ones (`Below.iterate`), every
neighbour has been looked at by one of the two scans (`le_iterate`), and a change is a rise (`exists_lt_iterate`).

A growth gives the levels after as many iterations as it has fuel (`levels_grow`), although it stops early at rest:
levels at rest stay as they are under further iterations.
-/

namespace ScannedPage.Morphology

/-- The levels of one grid are nowhere above those of another one of its size. -/
structure Below (levels levels' : Grid Nat) : Prop where
  size : levels.size = levels'.size
  le : ∀ p : Nat × Nat, levels.getD p.1 p.2 0 ≤ levels'.getD p.1 p.2 0

/-- Levels are not above themselves. -/
theorem Below.refl (levels : Grid Nat) : Below levels levels := ⟨rfl, fun _ => Nat.le_refl _⟩

/-- Levels that are below others are below all that those are below. -/
theorem Below.trans {levels levels' levels'' : Grid Nat} (h : Below levels levels') (h' : Below levels' levels'') :
    Below levels levels'' := ⟨h.size.trans h'.size, fun p => Nat.le_trans (h.le p) (h'.le p)⟩

section Pixels

variable {caps : Grid Nat} {steps : List (Int × Int)}

/-- Higher levels have higher ones near a position. -/
theorem highestNear_mono {levels levels' : Grid Nat} (h : Below levels levels') (steps : List (Int × Int))
    (x y : Nat) {level level' : Nat} (hlevel : level ≤ level') :
    highestNear levels steps x y level ≤ highestNear levels' steps x y level' := by
  rcases highestNear_eq levels steps x y level with hown | ⟨d, hd, q, hq, heq⟩
  · rw [hown]
    exact Nat.le_trans hlevel (self_le_highestNear ..)
  · rw [heq]
    exact Nat.le_trans (h.le q) (le_highestNear level' hd (h.size ▸ hq))

/-- Raising a position gives it the higher one of its level and of what the mask lets through, and no other
changes. -/
theorem Sweep.getD_propagate (t : Sweep) {x y : Nat} (hxy : t.levels.size.Contains x y) (p : Nat × Nat) :
    (t.propagate caps steps x y).levels.getD p.1 p.2 0 =
      if p = (x, y) then
        max (t.levels.getD x y 0) (min (highestNear t.levels steps x y (t.levels.getD x y 0)) (caps.getD x y 0))
      else t.levels.getD p.1 p.2 0 := by
  have hset : ∀ v, (t.levels.set x y v).getD p.1 p.2 0 = if p = (x, y) then v else t.levels.getD p.1 p.2 0 := by
    intro v
    simp only [Grid.getD_set, hxy, and_true, Prod.ext_iff]
  have hstays : ∀ v, v ≤ t.levels.getD x y 0 →
      t.levels.getD p.1 p.2 0 = if p = (x, y) then max (t.levels.getD x y 0) v else t.levels.getD p.1 p.2 0 := by
    intro v hv
    split
    · next heq => rw [heq, Nat.max_eq_left hv]
    · rfl
  simp only [propagate]
  split
  · next hcap => exact hstays _ (hcap ▸ Nat.min_le_right _ _)
  · split
    · next hraised => rw [hset, Nat.max_eq_right (Nat.le_of_lt hraised)]
    · next hraised => exact hstays _ (Nat.le_of_not_lt hraised)

/-- Raising a position lowers none. -/
theorem Sweep.below_propagate (t : Sweep) {x y : Nat} (hxy : t.levels.size.Contains x y) :
    Below t.levels (t.propagate caps steps x y).levels := by
  refine ⟨(Sweep.size_propagate ..).symm, fun p => ?_⟩
  rw [t.getD_propagate hxy]
  split
  · next heq => exact heq ▸ Nat.le_max_left _ _
  · exact Nat.le_refl _

/-- Raising a position keeps the order of two grids. -/
theorem Sweep.propagate_mono {t t' : Sweep} (h : Below t.levels t'.levels) {x y : Nat}
    (hxy : t.levels.size.Contains x y) :
    Below (t.propagate caps steps x y).levels (t'.propagate caps steps x y).levels := by
  refine ⟨by rw [Sweep.size_propagate, Sweep.size_propagate, h.size], fun p => ?_⟩
  rw [t.getD_propagate hxy, t'.getD_propagate (h.size ▸ hxy)]
  split
  · have hnear := highestNear_mono h steps x y (h.le (x, y))
    exact max_le_max (h.le (x, y)) (min_le_min_right _ hnear)
  · exact h.le p

/-- Raising a position lets through to it from every neighbour that is looked at. -/
theorem Sweep.le_propagate (t : Sweep) {x y : Nat} (hxy : t.levels.size.Contains x y) {d : Int × Int}
    (hd : d ∈ steps) {q : Nat × Nat} (hq : t.levels.size.step? x y d = some q) :
    min (t.levels.getD q.1 q.2 0) (caps.getD x y 0) ≤ (t.propagate caps steps x y).levels.getD x y 0 := by
  have hat : (t.propagate caps steps x y).levels.getD x y 0 =
      max (t.levels.getD x y 0) (min (highestNear t.levels steps x y (t.levels.getD x y 0)) (caps.getD x y 0)) :=
    (t.getD_propagate hxy (x, y)).trans (if_pos rfl)
  rw [hat]
  exact Nat.le_trans (min_le_min_right _ (le_highestNear _ hd hq)) (Nat.le_max_right _ _)

/-- A sweep that is marked as changed at a position has risen there, if it was not marked before. -/
theorem Sweep.lt_propagate (t : Sweep) {x y : Nat} (hxy : t.levels.size.Contains x y) (ht : t.changed = false)
    (h : (t.propagate caps steps x y).changed = true) :
    t.levels.getD x y 0 < (t.propagate caps steps x y).levels.getD x y 0 := by
  rcases t.propagate_cases caps steps x y with ⟨heq, _⟩ | ⟨_, _, q, _, hlt, heq⟩
  · rw [heq, ht] at h
    exact absurd h nofun
  · rw [heq]
    rwa [Grid.getD_set, if_pos ⟨rfl, rfl, hxy⟩]

end Pixels

section Scans

variable {caps : Grid Nat} {steps : List (Int × Int)} {visited : Nat → Nat × Nat}

/-- A scan that raises the first `n` visited positions one after the other. -/
def Sweep.along (caps : Grid Nat) (steps : List (Int × Int)) (visited : Nat → Nat × Nat) (n : Nat) (t : Sweep) :
    Sweep :=
  Nat.fold n (fun i _ t => t.propagate caps steps (visited i).1 (visited i).2) t

/-- What a scan has made of a sweep after its first visits: no level has fallen, the visited positions have what
the mask lets through from their neighbours, and a mark of change stems from a rise. -/
structure Sweep.Scanned (caps : Grid Nat) (steps : List (Int × Int)) (visited : Nat → Nat × Nat) (visits : Nat)
    (t u : Sweep) : Prop where
  below : Below t.levels u.levels
  passed : ∀ i < visits, ∀ d ∈ steps, ∀ q, caps.size.step? (visited i).1 (visited i).2 d = some q →
    min (t.levels.getD q.1 q.2 0) (capAt caps (visited i)) ≤ u.levels.getD (visited i).1 (visited i).2 0
  rises : t.changed = false → u.changed = true → ∃ p : Nat × Nat, caps.size.Contains p.1 p.2 ∧
    t.levels.getD p.1 p.2 0 < u.levels.getD p.1 p.2 0

/-- One more visit goes on with what a scan has done. -/
theorem Sweep.Scanned.visit {t u : Sweep} {k : Nat} (h : Scanned caps steps visited k t u)
    (hsize : t.levels.size = caps.size) (hk : caps.size.Contains (visited k).1 (visited k).2) :
    Scanned caps steps visited (k + 1) t (u.propagate caps steps (visited k).1 (visited k).2) := by
  have husize : u.levels.size = caps.size := h.below.size.symm.trans hsize
  have hin : u.levels.size.Contains (visited k).1 (visited k).2 := husize ▸ hk
  have hup : Below u.levels (u.propagate caps steps (visited k).1 (visited k).2).levels := u.below_propagate hin
  refine ⟨h.below.trans hup, fun i hi d hd q hq => ?_, fun hfalse htrue => ?_⟩
  · rcases Nat.lt_succ_iff_lt_or_eq.mp hi with hlt | rfl
    · exact Nat.le_trans (h.passed i hlt d hd q hq) (hup.le (visited i))
    · exact Nat.le_trans (min_le_min_right _ (h.below.le q)) (u.le_propagate hin hd (husize ▸ hq))
  · cases hchanged : u.changed with
    | true =>
      obtain ⟨p, hp, hlt⟩ := h.rises hfalse hchanged
      exact ⟨p, hp, Nat.lt_of_lt_of_le hlt (hup.le p)⟩
    | false => exact ⟨visited k, hk, Nat.lt_of_le_of_lt (h.below.le _) (u.lt_propagate hin hchanged htrue)⟩

/-- After all its visits a scan has let through to every visited position. -/
theorem Sweep.scanned_along {n : Nat} (hvisited : ∀ i < n, caps.size.Contains (visited i).1 (visited i).2)
    {t : Sweep}
    (hsize : t.levels.size = caps.size) : Scanned caps steps visited n t (t.along caps steps visited n) := by
  unfold along
  refine scan_induction n _ t (fun k u => Scanned caps steps visited k t u) ?_ fun k hk u hu =>
    hu.visit hsize (hvisited k hk)
  refine ⟨Below.refl _, fun i hi => absurd hi (Nat.not_lt_zero i), fun hfalse htrue => ?_⟩
  rw [hfalse] at htrue
  exact absurd htrue nofun

/-- A scan keeps the order of two grids. -/
theorem Sweep.along_mono {n : Nat} (hvisited : ∀ i < n, caps.size.Contains (visited i).1 (visited i).2)
    {t t' : Sweep} (hsize : t.levels.size = caps.size) (h : Below t.levels t'.levels) :
    Below (t.along caps steps visited n).levels (t'.along caps steps visited n).levels := by
  refine (scan_related n _ _ (fun (u u' : Sweep) => u.levels.size = caps.size ∧ Below u.levels u'.levels)
    ⟨hsize, h⟩ fun i hi u u' ⟨husize, hu⟩ => ⟨?_, ?_⟩).2
  · exact (Sweep.size_propagate ..).trans husize
  · exact Sweep.propagate_mono hu (husize ▸ hvisited i hi)

end Scans

section Iterations

variable {caps levels : Grid Nat} {c : Connectivity}

/-- The position that the scan from the top left visits after `i` others. -/
def scanPosition (s : Size) (i : Nat) : Nat × Nat := (i % s.width, i / s.width)

/-- The visited positions lie inside. -/
theorem contains_scanPosition {s : Size} {i : Nat} (hi : i < s.area) :
    s.Contains (scanPosition s i).1 (scanPosition s i).2 := Size.contains_mod_div hi

/-- Every position inside is visited. -/
theorem scanPosition_index {s : Size} {p : Nat × Nat} (hp : s.Contains p.1 p.2) :
    scanPosition s (s.index p.1 p.2) = p := Prod.ext (Size.index_mod hp.1) (Size.index_div hp.1)

/-- The scan from the bottom right visits the same positions in the other order. -/
theorem contains_scanPosition_rev {s : Size} (i : Nat) (hi : i < s.area) :
    s.Contains (scanPosition s (s.area - 1 - i)).1 (scanPosition s (s.area - 1 - i)).2 :=
  contains_scanPosition (by omega)

/-- An iteration is a scan forward and a scan back. -/
theorem iterate_eq (caps : Grid Nat) (c : Connectivity) (levels : Grid Nat) :
    iterate caps c levels =
      ((⟨levels, false⟩ : Sweep).along caps c.causalOffsets (scanPosition caps.size) caps.size.area).along caps
        c.anticausalOffsets (fun i => scanPosition caps.size (caps.size.area - 1 - i)) caps.size.area := rfl

/-- What both scans of an iteration have done. -/
theorem exists_scanned (hsize : levels.size = caps.size) : ∃ middle : Sweep,
    Sweep.Scanned caps c.causalOffsets (scanPosition caps.size) caps.size.area ⟨levels, false⟩ middle ∧
      Sweep.Scanned caps c.anticausalOffsets (fun i => scanPosition caps.size (caps.size.area - 1 - i))
        caps.size.area middle (iterate caps c levels) := by
  have hforward : Sweep.Scanned caps c.causalOffsets (scanPosition caps.size) caps.size.area ⟨levels, false⟩ _ :=
    Sweep.scanned_along (fun i hi => contains_scanPosition hi) hsize
  exact ⟨_, hforward, Sweep.scanned_along contains_scanPosition_rev (hforward.below.size.symm.trans hsize)⟩

/-- An iteration lowers no level. -/
theorem below_iterate (hsize : levels.size = caps.size) : Below levels (iterate caps c levels).levels := by
  obtain ⟨middle, hforward, hback⟩ := exists_scanned (c := c) hsize
  exact hforward.below.trans hback.below

/-- An iteration keeps the order of two grids. -/
theorem Below.iterate {levels' : Grid Nat} (h : Below levels levels') (hsize : levels.size = caps.size) :
    Below (iterate caps c levels).levels (iterate caps c levels').levels := by
  rw [iterate_eq, iterate_eq]
  have hforward : Below
      ((⟨levels, false⟩ : Sweep).along caps c.causalOffsets (scanPosition caps.size) caps.size.area).levels
      ((⟨levels', false⟩ : Sweep).along caps c.causalOffsets (scanPosition caps.size) caps.size.area).levels :=
    Sweep.along_mono (fun i hi => contains_scanPosition hi) hsize h
  refine Sweep.along_mono contains_scanPosition_rev ?_ hforward
  exact (Sweep.scanned_along (fun i hi => contains_scanPosition hi) hsize).below.size.symm.trans hsize

/-- An iteration lets through from every neighbour, since one of its scans looks at it. -/
theorem le_iterate (hsize : levels.size = caps.size) {q p : Nat × Nat} (hq : caps.size.Contains q.1 q.2)
    (hp : caps.size.Contains p.1 p.2) (hn : c.Neighbours q p) :
    min (levels.getD q.1 q.2 0) (capAt caps p) ≤ (iterate caps c levels).levels.getD p.1 p.2 0 := by
  obtain ⟨middle, hforward, hback⟩ := exists_scanned (c := c) hsize
  have hstep : caps.size.step? p.1 p.2 ((q.1 : Int) - p.1, (q.2 : Int) - p.2) = some q :=
    Size.step?_eq_some_iff.mpr ⟨hq, rfl⟩
  have hi := Size.index_lt hp
  rcases (c.mem_offsets_iff _).mp hn.symm with hcausal | hanti
  · have hpassed := hforward.passed (caps.size.index p.1 p.2) hi _ hcausal q
    rw [scanPosition_index hp] at hpassed
    exact Nat.le_trans (hpassed hstep) (hback.below.le p)
  · have hpassed := hback.passed (caps.size.area - 1 - caps.size.index p.1 p.2) (by omega) _ hanti q
    have hplace : caps.size.area - 1 - (caps.size.area - 1 - caps.size.index p.1 p.2) =
        caps.size.index p.1 p.2 := by
      omega
    rw [hplace, scanPosition_index hp] at hpassed
    exact Nat.le_trans (min_le_min_right _ (hforward.below.le q)) (hpassed hstep)

/-- An iteration that reports a change has risen somewhere. -/
theorem exists_lt_iterate (hsize : levels.size = caps.size) (h : (iterate caps c levels).changed = true) :
    ∃ p : Nat × Nat, caps.size.Contains p.1 p.2 ∧
      levels.getD p.1 p.2 0 < (iterate caps c levels).levels.getD p.1 p.2 0 := by
  obtain ⟨middle, hforward, hback⟩ := exists_scanned (c := c) hsize
  cases hmiddle : middle.changed with
  | true =>
    obtain ⟨p, hp, hlt⟩ := hforward.rises rfl hmiddle
    exact ⟨p, hp, Nat.lt_of_lt_of_le hlt (hback.below.le p)⟩
  | false =>
    obtain ⟨p, hp, hlt⟩ := hback.rises hmiddle h
    exact ⟨p, hp, Nat.lt_of_le_of_lt (hforward.below.le p) hlt⟩

/-- What every raised position keeps, a whole iteration keeps. -/
theorem iterate_induction (P : Grid Nat → Prop) (hstart : P levels)
    (hstep : ∀ (t : Sweep) (steps : List (Int × Int)) (p : Nat × Nat), (∀ d ∈ steps, d ∈ c.offsets) →
      caps.size.Contains p.1 p.2 → P t.levels → P (t.propagate caps steps p.1 p.2).levels) :
    P (iterate caps c levels).levels := by
  have hscan : ∀ (steps : List (Int × Int)) (visited : Nat → Nat × Nat) (t : Sweep), (∀ d ∈ steps, d ∈ c.offsets) →
      (∀ i < caps.size.area, caps.size.Contains (visited i).1 (visited i).2) → P t.levels →
      P (t.along caps steps visited caps.size.area).levels := fun steps visited t hsteps hvisited ht => by
    unfold Sweep.along
    exact scan_induction _ _ t (fun _ u => P u.levels) ht fun i hi u hu =>
      hstep u steps (visited i) hsteps (hvisited i hi) hu
  rw [iterate_eq]
  refine hscan _ _ _ (fun d => Connectivity.mem_offsets_of_anticausal) contains_scanPosition_rev ?_
  exact hscan _ _ _ (fun d => Connectivity.mem_offsets_of_causal) (fun i hi => contains_scanPosition hi) hstart

end Iterations

section Rounds

variable (caps : Grid Nat) (c : Connectivity)

/-- The levels after a number of iterations. -/
def rounds (k : Nat) (levels : Grid Nat) : Grid Nat := (fun g => (iterate caps c g).levels)^[k] levels

/-- The levels after one more iteration are those that an iteration makes of the levels before it. -/
theorem rounds_succ (k : Nat) (levels : Grid Nat) :
    rounds caps c (k + 1) levels = (iterate caps c (rounds caps c k levels)).levels :=
  Function.iterate_succ_apply' _ k levels

/-- Iterations keep the size. -/
theorem size_rounds (k : Nat) (levels : Grid Nat) : (rounds caps c k levels).size = levels.size := by
  induction k with
  | zero => rfl
  | succ k ih => rw [rounds_succ, iterate, Sweep.size_backward, Sweep.size_forward, ih]

variable {caps c} {levels : Grid Nat}

/-- The levels are higher after more iterations. -/
theorem rounds_below {m n : Nat} (hsize : levels.size = caps.size) (h : m ≤ n) :
    Below (rounds caps c m levels) (rounds caps c n levels) := by
  induction n, h using Nat.le_induction with
  | base => exact Below.refl _
  | succ n _ ih =>
    rw [rounds_succ]
    exact ih.trans (below_iterate ((size_rounds ..).trans hsize))

/-- Higher levels are higher after any number of iterations. -/
theorem Below.rounds {levels' : Grid Nat} (h : Below levels levels') (hsize : levels.size = caps.size) (k : Nat) :
    Below (rounds caps c k levels) (rounds caps c k levels') := by
  induction k with
  | zero => exact h
  | succ k ih =>
    rw [rounds_succ, rounds_succ]
    exact ih.iterate ((size_rounds ..).trans hsize)

/-- A growth gives the levels after as many iterations as it has fuel, even if it stops before: at rest, further
iterations change nothing. -/
theorem levels_grow (hsize : levels.size = caps.size) (fuel done : Nat) :
    (grow caps c fuel done levels).1 = rounds caps c fuel levels := by
  induction fuel generalizing done levels with
  | zero => rfl
  | succ fuel ih =>
    simp only [grow]
    split
    · rw [ih ((below_iterate hsize).size.symm.trans hsize)]
      rfl
    · next hchanged =>
      have hsame := (atRest_of_not_changed (c := c) rfl hsize (Bool.eq_false_iff.mpr hchanged)).1
      rw [rounds, Function.iterate_fixed hsame, hsame]

/-- A growth that does not come to rest has changed something in each of its iterations. -/
theorem changed_of_not_rest {fuel done : Nat} (h : (grow caps c fuel done levels).2.1 = false) {k : Nat}
    (hk : k < fuel) : (iterate caps c (rounds caps c k levels)).changed = true := by
  induction fuel generalizing done levels k with
  | zero => exact absurd hk (Nat.not_lt_zero k)
  | succ fuel ih =>
    simp only [grow] at h
    split at h
    · next hchanged =>
      cases k with
      | zero => exact hchanged
      | succ k => exact ih h (Nat.lt_of_succ_lt_succ hk)
    · exact absurd h.symm Bool.false_ne_true

/-- A growth that came to rest ends in the same way with more fuel. -/
theorem grow_eq_of_rest {m n done : Nat} (hmn : m ≤ n) (h : (grow caps c m done levels).2.1 = true) :
    grow caps c n done levels = grow caps c m done levels := by
  induction m generalizing n done levels with
  | zero => exact absurd h nofun
  | succ m ih =>
    obtain ⟨n, rfl⟩ : ∃ k, n = k + 1 := ⟨n - 1, by omega⟩
    simp only [grow] at h ⊢
    split
    · next hchanged =>
      rw [if_pos hchanged] at h
      exact ih (Nat.le_of_succ_le_succ hmn) h
    · rfl

end Rounds

section Reconstruction

variable {s : Size} {marker mask : Raster}

/-- The caps that a mask sets. -/
def capsOf (mask : Raster) : Grid Nat := mask.pixels.map (· % 256)

/-- The levels that a reconstruction starts from. -/
def startOf (marker mask : Raster) : Grid Nat := seed marker.pixels (capsOf mask)

/-- The growth behind a reconstruction: its levels, whether they are at rest, and the iterations. -/
def growth (marker mask : Raster) (c : Connectivity) (limit : Nat) : Grid Nat × Bool × Nat :=
  grow (capsOf mask) c limit 0 (startOf marker mask)

/-- The caps have the size of the mask. -/
theorem size_capsOf (hmask : IsGray s mask) : (capsOf mask).size = s := hmask.2

/-- A growth starts with levels of the size of its caps. -/
theorem size_startOf (hmarker : IsGray s marker) (hmask : IsGray s mask) :
    (startOf marker mask).size = (capsOf mask).size := hmarker.2.trans hmask.2.symm

/-- A reconstruction with at least one iteration gives what its growth gives. -/
theorem reconstructWithin_eq_ok (hmarker : IsGray s marker) (hmask : IsGray s mask) (c : Connectivity)
    {limit : Nat} (hlimit : 0 < limit) :
    reconstructWithin marker mask c limit =
      .ok ⟨⟨.gray8, marker.resolution, (growth marker mask c limit).1⟩, (growth marker mask c limit).2.1,
        (growth marker mask c limit).2.2⟩ := by
  have hsides : mask.checkSides marker.size.sides = .ok () :=
    Raster.checkSides_eq_ok (hmask.2.trans hmarker.2.symm)
  simp only [reconstructWithin, require_eq_ok hmarker.1, require_eq_ok hmask.1, hsides, Nat.ne_of_gt hlimit,
    if_false]
  rfl

/-- The levels of a reconstruction are those after as many iterations as its cap. -/
theorem levels_growth (hmarker : IsGray s marker) (hmask : IsGray s mask) (c : Connectivity) (limit : Nat) :
    (growth marker mask c limit).1 = rounds (capsOf mask) c limit (startOf marker mask) :=
  levels_grow (size_startOf hmarker hmask) limit 0

/-- What a growth gives is a geodesic reconstruction. -/
theorem isGeodesic_growth (hmarker : IsGray s marker) (hmask : IsGray s mask) (c : Connectivity) (limit : Nat) :
    Reconstruction.IsGeodesic
      ⟨⟨.gray8, marker.resolution, (growth marker mask c limit).1⟩, (growth marker mask c limit).2.1,
        (growth marker mask c limit).2.2⟩ c s marker mask := by
  have hlevel : marker.level = fun p => marker.pixels.getD p.1 p.2 0 % 256 := by
    funext p
    rw [Raster.level, hmarker.1]
    rfl
  have hstart : Carried c s marker.level (capsOf mask) (startOf marker mask) := by
    rw [hlevel]
    exact carried_seed marker.pixels (capsOf mask) hmarker.2
  obtain ⟨hcarried, hrest⟩ := hstart.grow (size_capsOf hmask) limit 0
  exact hcarried.isGeodesic hmask.1 hrest _

/-- In an image that fits, a reconstruction with at least one iteration exists for every marker and every mask of
this size, and the scans in words give it without fault. It is geodesic: once at rest, every position has the
highest level that the marker brings to it over a path under the mask. -/
theorem reconstructWithin_isGeodesic (hs : s.FitsInt32) (hmarker : IsGray s marker) (hmask : IsGray s mask)
    (c : Connectivity) {limit : Nat} (hlimit : 0 < limit) :
    Returns (reconstructWithin marker mask c limit) fun grown =>
      reconstructInWords? marker mask c limit = some (.ok grown) ∧ grown.IsGeodesic c s marker mask := by
  have hgrown := reconstructWithin_eq_ok hmarker hmask c hlimit
  refine ⟨_, hgrown, ?_, isGeodesic_growth hmarker hmask c limit⟩
  rw [← hgrown]
  exact reconstructInWords?_eq_some (hmask.2.symm ▸ hs) c

/-- A seed in the upper left reaches the upper right around a wall, which it climbs as far as the wall is high. -/
theorem reconstructWithin_around_wall :
    let marker : Raster := ⟨.gray8, .standard, ⟨⟨3, 2, by decide, by decide⟩, #[180, 0, 0, 0, 0, 0], rfl⟩⟩
    let mask : Raster := ⟨.gray8, .standard, ⟨⟨3, 2, by decide, by decide⟩, #[200, 50, 220, 200, 200, 190], rfl⟩⟩
    marker.size.FitsInt32 ∧ ∃ grown, reconstructWithin marker mask .fourWay 2 = .ok grown ∧
      reconstructInWords? marker mask .fourWay 2 = some (.ok grown) ∧ grown.converged = true ∧
      grown.image.words = #[180, 50, 180, 180, 180, 180] ∧ grown.IsGeodesic .fourWay marker.size marker mask := by
  intro marker mask
  have hfits : marker.size.FitsInt32 := by decide
  have hmarker : IsGray marker.size marker := ⟨rfl, rfl⟩
  have hmask : IsGray marker.size mask := ⟨rfl, rfl⟩
  obtain ⟨grown, hgrown, hwords, hgeodesic⟩ :=
    reconstructWithin_isGeodesic hfits hmarker hmask .fourWay Nat.two_pos
  refine ⟨hfits, grown, hgrown, hwords, ?_, ?_, hgeodesic⟩
  · rw [← Except.ok.inj hgrown]
    decide +kernel
  · rw [← Except.ok.inj hgrown]
    decide +kernel

/-- A reconstruction with the usual cap is geodesic. -/
theorem reconstruct_geodesic (hmarker : IsGray s marker) (hmask : IsGray s mask) (c : Connectivity) :
    Returns (reconstruct marker mask c) fun grown => grown.IsGeodesic c s marker mask := by
  have hlimit : 0 < iterationLimit marker.width marker.height :=
    Nat.lt_of_lt_of_le Nat.zero_lt_one (Nat.le_max_right _ _)
  rw [reconstruct, reconstructWithin_eq_ok hmarker hmask c hlimit]
  exact returns_ok (isGeodesic_growth hmarker hmask c _)

/-- A higher marker gives a higher start. -/
theorem below_startOf {marker' : Raster} (mask : Raster) (hmarker : IsGray s marker) (hmarker' : IsGray s marker')
    (h : ∀ p, s.Contains p.1 p.2 → marker.level p ≤ marker'.level p) :
    Below (startOf marker mask) (startOf marker' mask) := by
  refine ⟨hmarker.2.trans hmarker'.2.symm, fun p => ?_⟩
  have hsize : marker.pixels.size = s := hmarker.2
  have hsize' : marker'.pixels.size = s := hmarker'.2
  rw [startOf, startOf, seed, seed, Grid.getD_ofFn, Grid.getD_ofFn, hsize, hsize']
  split
  · next hp =>
    have hlevel := h p hp
    rw [Raster.level, Raster.level, hmarker.1, hmarker'.1] at hlevel
    exact min_le_min_right _ hlevel
  · exact Nat.le_refl _

end Reconstruction

end ScannedPage.Morphology
