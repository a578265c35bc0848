import Mathlib.Order.Lattice.Nat
import ScannedPage.Proofs.Morphology
import ScannedPage.Proofs.Region.Paths

/-!
# Reconstruction is geodesic

A marker is carried along the paths of an image: whatever comes over a path is no higher than the marker at its
start and than the mask anywhere on it. A reconstruction that came to rest gives every position the highest level
that comes to it over any path, and one that was cut off gives no more than that (`Reconstruction.IsGeodesic`).

Two invariants carry the growth. Every level is what some path brings (`Carried`), since a position only rises to
what a neighbour has. Once an iteration changes nothing, no neighbour has more than the mask lets through
(`AtRest`): each of the two scans looks at half of the neighbours only, but both look at the same levels then.
-/

namespace ScannedPage

/-- The gray level that a raster shows at a position. -/
def Raster.level (r : Raster) (p : Nat × Nat) : Nat := r.format.grayOf (r.word p.1 p.2)

namespace Morphology

/-- A path of neighbours inside an image leads from one position to another, and the smallest level on it is
`lowest`. -/
inductive Route (c : Connectivity) (s : Size) (levels : Nat × Nat → Nat) (q : Nat × Nat) : Nat × Nat → Nat → Prop
  | single (hq : s.Contains q.1 q.2) : Route c s levels q q (levels q)
  | step {p p' : Nat × Nat} {lowest : Nat} (h : Route c s levels q p lowest) (hn : c.Neighbours p p')
      (hp' : s.Contains p'.1 p'.2) : Route c s levels q p' (min lowest (levels p'))

/-- What comes to a position over the paths of an image: the marker at the start of a path, as far as the mask lets
it through. -/
def carriedLevels (c : Connectivity) (s : Size) (marker mask : Nat × Nat → Nat) (p : Nat × Nat) : Set Nat :=
  { v | ∃ q lowest, Route c s mask q p lowest ∧ v = min (marker q) lowest }

/-- A reconstruction lies between the marker cut off at the mask and the mask. It gives no position more than the
highest level that comes to it over a path, and exactly this level once it came to rest. -/
structure Reconstruction.IsGeodesic (g : Reconstruction) (c : Connectivity) (s : Size) (marker mask : Raster) :
    Prop where
  shape : g.image.HasShape .gray8 s marker.resolution
  marker_le : ∀ p, s.Contains p.1 p.2 → min (marker.level p) (mask.level p) ≤ g.image.level p
  le_mask : ∀ p, s.Contains p.1 p.2 → g.image.level p ≤ mask.level p
  highest : ∀ p, s.Contains p.1 p.2 → ∃ v, IsGreatest (carriedLevels c s marker.level mask.level p) v ∧
    g.image.level p ≤ v ∧ (g.converged = true → g.image.level p = v)

section Routes

variable {c : Connectivity} {s : Size} {marker mask : Nat × Nat → Nat} {q p : Nat × Nat} {lowest : Nat}

/-- The smallest level on a path is at most the level at its end. -/
theorem Route.lowest_le (h : Route c s mask q p lowest) : lowest ≤ mask p := by
  cases h with
  | single hq => exact Nat.le_refl _
  | step h hn hp => exact Nat.min_le_right _ _

/-- What comes to a position is at most the mask there. -/
theorem le_of_mem_carriedLevels {v : Nat} (h : v ∈ carriedLevels c s marker mask p) : v ≤ mask p := by
  obtain ⟨q, lowest, hroute, rfl⟩ := h
  exact Nat.le_trans (Nat.min_le_right _ _) hroute.lowest_le

/-- The path of one position brings the marker cut off at the mask. -/
theorem mem_carriedLevels_single (hp : s.Contains p.1 p.2) :
    min (marker p) (mask p) ∈ carriedLevels c s marker mask p := ⟨p, mask p, .single hp, rfl⟩

/-- What came to a position comes to its neighbours, as far as the mask lets it through. -/
theorem mem_carriedLevels_step {v : Nat} (h : v ∈ carriedLevels c s marker mask q) (hn : c.Neighbours q p)
    (hp : s.Contains p.1 p.2) : min v (mask p) ∈ carriedLevels c s marker mask p := by
  obtain ⟨start, lowest, hroute, rfl⟩ := h
  exact ⟨start, min lowest (mask p), hroute.step hn hp, Nat.min_assoc _ _ _⟩

/-- Some path brings the highest level to a position. -/
theorem exists_isGreatest_carriedLevels (hp : s.Contains p.1 p.2) :
    ∃ v, IsGreatest (carriedLevels c s marker mask p) v := by
  have hbounded : BddAbove (carriedLevels c s marker mask p) := ⟨mask p, fun _ => le_of_mem_carriedLevels⟩
  exact ⟨_, Nat.sSup_mem ⟨_, mem_carriedLevels_single hp⟩ hbounded, fun _ hv => le_csSup hbounded hv⟩

end Routes

section Propagation

/-- A step that leads outside adds nothing to the levels near a position. -/
theorem highestNear_cons_none {levels : Grid Nat} {d : Int × Int} {x y : Nat}
    (h : levels.size.step? x y d = none) (steps : List (Int × Int)) (level : Nat) :
    highestNear levels (d :: steps) x y level = highestNear levels steps x y level := by
  rw [highestNear, List.foldl_cons, h]
  rfl

/-- A step that leads inside adds the level there to the levels near a position. -/
theorem highestNear_cons_some {levels : Grid Nat} {d : Int × Int} {x y : Nat} {q : Nat × Nat}
    (h : levels.size.step? x y d = some q) (steps : List (Int × Int)) (level : Nat) :
    highestNear levels (d :: steps) x y level =
      highestNear levels steps x y (max level (levels.getD q.1 q.2 0)) := by
  rw [highestNear, List.foldl_cons, h]
  rfl

/-- The highest level near a position is at least its own. -/
theorem self_le_highestNear (levels : Grid Nat) (steps : List (Int × Int)) (x y level : Nat) :
    level ≤ highestNear levels steps x y level := by
  induction steps generalizing level with
  | nil => exact Nat.le_refl _
  | cons d steps ih =>
    cases hd : levels.size.step? x y d with
    | none => exact highestNear_cons_none hd steps level ▸ ih level
    | some q => exact highestNear_cons_some hd steps level ▸ Nat.le_trans (Nat.le_max_left _ _) (ih _)

/-- The highest level near a position is at least the level at every step. -/
theorem le_highestNear {levels : Grid Nat} {steps : List (Int × Int)} {x y : Nat} (level : Nat) {d : Int × Int}
    (hd : d ∈ steps) {q : Nat × Nat} (hq : levels.size.step? x y d = some q) :
    levels.getD q.1 q.2 0 ≤ highestNear levels steps x y level := by
  induction steps generalizing level with
  | nil => exact absurd hd List.not_mem_nil
  | cons e steps ih =>
    rcases List.mem_cons.mp hd with rfl | hmem
    · rw [highestNear_cons_some hq]
      exact Nat.le_trans (Nat.le_max_right _ _) (self_le_highestNear ..)
    · cases he : levels.size.step? x y e with
      | none => exact highestNear_cons_none he steps level ▸ ih level hmem
      | some q' => exact highestNear_cons_some he steps level ▸ ih _ hmem

/-- The highest level near a position is its own or one at a step. -/
theorem highestNear_eq (levels : Grid Nat) (steps : List (Int × Int)) (x y level : Nat) :
    highestNear levels steps x y level = level ∨ ∃ d ∈ steps, ∃ q, levels.size.step? x y d = some q ∧
      highestNear levels steps x y level = levels.getD q.1 q.2 0 := by
  induction steps generalizing level with
  | nil => exact Or.inl rfl
  | cons d steps ih =>
    cases hd : levels.size.step? x y d with
    | none =>
      rw [highestNear_cons_none hd]
      rcases ih level with hown | ⟨e, he, q, hq, heq⟩
      · exact Or.inl hown
      · exact Or.inr ⟨e, List.mem_cons_of_mem _ he, q, hq, heq⟩
    | some q =>
      rw [highestNear_cons_some hd]
      rcases ih (max level (levels.getD q.1 q.2 0)) with hown | ⟨e, he, q', hq', heq⟩
      · rw [hown]
        rcases Nat.le_total level (levels.getD q.1 q.2 0) with hle | hle
        · exact Or.inr ⟨d, List.mem_cons_self, q, hd, Nat.max_eq_right hle⟩
        · exact Or.inl (Nat.max_eq_left hle)
      · exact Or.inr ⟨e, List.mem_cons_of_mem _ he, q', hq', heq⟩

/-- A position stays when the mask lets through no more from the steps than it has, and otherwise rises to what the
mask lets through from one of the steps. -/
theorem Sweep.propagate_cases (caps : Grid Nat) (steps : List (Int × Int)) (x y : Nat) (s : Sweep) :
    (s.propagate caps steps x y = s ∧ ∀ d ∈ steps, ∀ q, s.levels.size.step? x y d = some q →
      min (s.levels.getD q.1 q.2 0) (caps.getD x y 0) ≤ s.levels.getD x y 0) ∨
    ∃ d ∈ steps, ∃ q, s.levels.size.step? x y d = some q ∧
      s.levels.getD x y 0 < min (s.levels.getD q.1 q.2 0) (caps.getD x y 0) ∧
      s.propagate caps steps x y = ⟨s.levels.set x y (min (s.levels.getD q.1 q.2 0) (caps.getD x y 0)), true⟩ := by
  simp only [propagate]
  split
  · next hcap => exact Or.inl ⟨rfl, fun d _ q _ => hcap ▸ Nat.min_le_right _ _⟩
  · split
    · next hraised =>
      rcases highestNear_eq s.levels steps x y (s.levels.getD x y 0) with hown | ⟨d, hd, q, hq, heq⟩
      · rw [hown] at hraised
        exact absurd hraised (Nat.not_lt_of_le (Nat.min_le_left _ _))
      · rw [heq] at hraised ⊢
        exact Or.inr ⟨d, hd, q, hq, hraised, rfl⟩
    · next hraised =>
      refine Or.inl ⟨rfl, fun d hd q hq => ?_⟩
      have hnear := le_highestNear (s.levels.getD x y 0) hd hq
      exact Nat.le_trans (min_le_min_right _ hnear) (Nat.le_of_not_lt hraised)

/-- A position that stays has no less than the mask lets through from the steps. -/
theorem Sweep.le_of_propagate_eq {caps : Grid Nat} {steps : List (Int × Int)} {x y : Nat} {s : Sweep}
    (h : s.propagate caps steps x y = s) (hs : s.changed = false) {d : Int × Int} (hd : d ∈ steps) {q : Nat × Nat}
    (hq : s.levels.size.step? x y d = some q) :
    min (s.levels.getD q.1 q.2 0) (caps.getD x y 0) ≤ s.levels.getD x y 0 := by
  rcases s.propagate_cases caps steps x y with ⟨_, hle⟩ | ⟨_, _, _, _, _, hrise⟩
  · exact hle d hd q hq
  · rw [h] at hrise
    rw [hrise] at hs
    exact absurd hs nofun

/-- A scan whose rounds each leave the sweep or change it has left it in every round when nothing is changed at its
end. -/
theorem fold_eq_of_not_changed {n : Nat} (step : (i : Nat) → i < n → Sweep → Sweep) (s : Sweep)
    (hstep : ∀ i hi t, step i hi t = t ∨ (step i hi t).changed = true)
    (h : (Nat.fold n step s).changed = false) :
    Nat.fold n step s = s ∧ ∀ i (hi : i < n), step i hi s = s := by
  have hscan := scan_induction n step s
    (fun i t => t.changed = false → t = s ∧ ∀ j (hj : j < n), j < i → step j hj s = s)
    (fun _ => ⟨rfl, fun j _ hj => absurd hj (Nat.not_lt_zero j)⟩) fun i hi t ih hchanged => by
      rcases hstep i hi t with heq | htrue
      · rw [heq] at hchanged ⊢
        obtain ⟨rfl, hbefore⟩ := ih hchanged
        refine ⟨rfl, fun j hj hlt => ?_⟩
        rcases Nat.lt_succ_iff_lt_or_eq.mp hlt with hlt | rfl
        · exact hbefore j hj hlt
        · exact heq
      · rw [hchanged] at htrue
        exact absurd htrue nofun
  obtain ⟨heq, hall⟩ := hscan h
  exact ⟨heq, fun i hi => hall i hi hi⟩

end Propagation

section Growth

variable {c : Connectivity} {s : Size} {marker : Nat × Nat → Nat} {caps : Grid Nat}

/-- The mask as a function of positions. -/
def capAt (caps : Grid Nat) (p : Nat × Nat) : Nat := caps.getD p.1 p.2 0

/-- Every level is one that comes over a path, and none is below the marker cut off at the mask. -/
structure Carried (c : Connectivity) (s : Size) (marker : Nat × Nat → Nat) (caps levels : Grid Nat) : Prop where
  size : levels.size = s
  marker_le : ∀ p, s.Contains p.1 p.2 → min (marker p) (capAt caps p) ≤ levels.getD p.1 p.2 0
  mem : ∀ p, s.Contains p.1 p.2 → levels.getD p.1 p.2 0 ∈ carriedLevels c s marker (capAt caps) p

/-- No neighbour has more for a position than the mask lets through. -/
def AtRest (c : Connectivity) (s : Size) (caps levels : Grid Nat) : Prop :=
  ∀ q p, s.Contains q.1 q.2 → s.Contains p.1 p.2 → c.Neighbours q p →
    min (levels.getD q.1 q.2 0) (capAt caps p) ≤ levels.getD p.1 p.2 0

/-- A step that a scan looks at leads to a neighbour inside. -/
theorem Connectivity.neighbours_of_step? {d : Int × Int} (hd : d ∈ c.offsets) {p q : Nat × Nat}
    (h : s.step? p.1 p.2 d = some q) : s.Contains q.1 q.2 ∧ c.Neighbours q p := by
  obtain ⟨hq, rfl⟩ := Size.step?_eq_some_iff.mp h
  exact ⟨hq, Connectivity.Neighbours.symm (p := p) (q := q) hd⟩

/-- A raised position has what comes over a path through a neighbour. -/
theorem Carried.propagate {t : Sweep} (h : Carried c s marker caps t.levels) {steps : List (Int × Int)}
    (hsteps : ∀ d ∈ steps, d ∈ c.offsets) {p : Nat × Nat} (hp : s.Contains p.1 p.2) :
    Carried c s marker caps (t.propagate caps steps p.1 p.2).levels := by
  rcases t.propagate_cases caps steps p.1 p.2 with ⟨heq, _⟩ | ⟨d, hd, q, hq, hraised, heq⟩
  · rw [heq]
    exact h
  · rw [h.size] at hq
    obtain ⟨hqin, hn⟩ := Connectivity.neighbours_of_step? (hsteps d hd) hq
    have hrisen := mem_carriedLevels_step (h.mem q hqin) hn hp
    rw [heq]
    refine ⟨(Grid.size_set ..).trans h.size, fun p' hp' => ?_, fun p' hp' => ?_⟩
    · rw [Grid.getD_set]
      split
      · next hsame =>
        obtain rfl : p' = p := Prod.ext hsame.1 hsame.2.1
        exact Nat.le_trans (h.marker_le p' hp') (Nat.le_of_lt hraised)
      · exact h.marker_le p' hp'
    · rw [Grid.getD_set]
      split
      · next hsame =>
        obtain rfl : p' = p := Prod.ext hsame.1 hsame.2.1
        exact hrisen
      · exact h.mem p' hp'

/-- The steps that a scan forward looks at lead to neighbours. -/
theorem Connectivity.mem_offsets_of_causal {d : Int × Int} (hd : d ∈ c.causalOffsets) : d ∈ c.offsets :=
  (c.mem_offsets_iff d).mpr (Or.inl hd)

/-- The steps that a scan back looks at lead to neighbours. -/
theorem Connectivity.mem_offsets_of_anticausal {d : Int × Int} (hd : d ∈ c.anticausalOffsets) : d ∈ c.offsets :=
  (c.mem_offsets_iff d).mpr (Or.inr hd)

/-- An iteration carries levels along paths. -/
theorem Carried.iterate {levels : Grid Nat} (hcaps : caps.size = s) (h : Carried c s marker caps levels) :
    Carried c s marker caps (iterate caps c levels).levels := by
  subst hcaps
  have hforward : Carried c caps.size marker caps (Sweep.forward caps c ⟨levels, false⟩).levels := by
    unfold Sweep.forward
    refine scan_induction _ _ _
      (fun _ (t : Sweep) => Carried c caps.size marker caps t.levels) h fun i hi t ht => ?_
    exact ht.propagate (fun _ => Connectivity.mem_offsets_of_causal)
      (p := (i % caps.size.width, i / caps.size.width)) (Size.contains_mod_div hi)
  unfold Morphology.iterate Sweep.backward
  refine scan_induction _ _ _
    (fun _ (t : Sweep) => Carried c caps.size marker caps t.levels) hforward fun j hj t ht => ?_
  have hi : caps.size.area - 1 - j < caps.size.area := by omega
  exact ht.propagate (fun _ => Connectivity.mem_offsets_of_anticausal)
    (p := ((caps.size.area - 1 - j) % caps.size.width, (caps.size.area - 1 - j) / caps.size.width))
    (Size.contains_mod_div hi)

/-- Raising a position leaves the sweep or marks it as changed. -/
theorem Sweep.propagate_eq_or_changed (caps : Grid Nat) (steps : List (Int × Int)) (x y : Nat) (t : Sweep) :
    t.propagate caps steps x y = t ∨ (t.propagate caps steps x y).changed = true := by
  rcases t.propagate_cases caps steps x y with ⟨heq, _⟩ | ⟨_, _, _, _, _, heq⟩
  · exact Or.inl heq
  · exact Or.inr (by rw [heq])

/-- An iteration that changes nothing ends with the levels it began with, and these are at rest. -/
theorem atRest_of_not_changed {levels : Grid Nat} (hcaps : caps.size = s) (hlevels : levels.size = s)
    (h : (iterate caps c levels).changed = false) :
    (iterate caps c levels).levels = levels ∧ AtRest c s caps levels := by
  subst hcaps
  obtain ⟨hback, hbackStep⟩ := fold_eq_of_not_changed _ (Sweep.forward caps c ⟨levels, false⟩)
    (fun j _ t => t.propagate_eq_or_changed caps c.anticausalOffsets _ _) h
  have hsame : iterate caps c levels = Sweep.forward caps c ⟨levels, false⟩ := hback
  rw [hsame] at h ⊢
  obtain ⟨hfor, hforStep⟩ := fold_eq_of_not_changed _ (⟨levels, false⟩ : Sweep)
    (fun i _ t => t.propagate_eq_or_changed caps c.causalOffsets _ _) h
  have hsame : Sweep.forward caps c ⟨levels, false⟩ = ⟨levels, false⟩ := hfor
  rw [hsame] at hbackStep ⊢
  refine ⟨rfl, fun q p hq hp hn => ?_⟩
  have hi := Size.index_lt hp
  -- the step from the position back to its neighbour belongs to one of the scans
  have hstep : levels.size.step? p.1 p.2 ((q.1 : Int) - p.1, (q.2 : Int) - p.2) = some q :=
    Size.step?_eq_some_iff.mpr ⟨hlevels ▸ hq, rfl⟩
  rcases (c.mem_offsets_iff _).mp hn.symm with hcausal | hanti
  · have hstays := hforStep (caps.size.index p.1 p.2) hi
    rw [Size.index_mod hp.1, Size.index_div hp.1] at hstays
    exact Sweep.le_of_propagate_eq hstays rfl hcausal hstep
  · have hstays := hbackStep (caps.size.area - 1 - caps.size.index p.1 p.2) (by omega)
    have hplace : caps.size.area - 1 - (caps.size.area - 1 - caps.size.index p.1 p.2) =
        caps.size.index p.1 p.2 := by omega
    rw [hplace, Size.index_mod hp.1, Size.index_div hp.1] at hstays
    exact Sweep.le_of_propagate_eq hstays rfl hanti hstep

/-- Whatever ends a growth, its levels come over paths, and they are at rest if it says so. -/
theorem Carried.grow {levels : Grid Nat} (hcaps : caps.size = s) (h : Carried c s marker caps levels)
    (fuel done : Nat) : Carried c s marker caps (grow caps c fuel done levels).1 ∧
      ((grow caps c fuel done levels).2.1 = true → AtRest c s caps (grow caps c fuel done levels).1) := by
  induction fuel generalizing done levels with
  | zero => exact ⟨h, nofun⟩
  | succ fuel ih =>
    simp only [Morphology.grow]
    split
    · exact ih (h.iterate hcaps) (done + 1)
    · next hchanged =>
      obtain ⟨hsame, hrest⟩ := atRest_of_not_changed hcaps h.size (Bool.eq_false_iff.mpr hchanged)
      rw [hsame]
      exact ⟨h, fun _ => hrest⟩

/-- The levels at the start of a growth come over the paths of one position. -/
theorem carried_seed (start caps : Grid Nat) (hstart : start.size = s) :
    Carried c s (fun p => start.getD p.1 p.2 0 % 256) caps (seed start caps) := by
  have hat : ∀ p : Nat × Nat, s.Contains p.1 p.2 → (seed start caps).getD p.1 p.2 0 =
      min (start.getD p.1 p.2 0 % 256) (capAt caps p) := by
    intro p hp
    rw [seed, Grid.getD_ofFn, hstart, if_pos hp]
    rfl
  refine ⟨hstart, fun p hp => Nat.le_of_eq (hat p hp).symm, fun p hp => ?_⟩
  rw [hat p hp]
  exact mem_carriedLevels_single hp

/-- Levels at rest are at least what comes over any path. -/
theorem AtRest.le_of_route {levels : Grid Nat} (hrest : AtRest c s caps levels)
    (hle : ∀ p, s.Contains p.1 p.2 → min (marker p) (capAt caps p) ≤ levels.getD p.1 p.2 0) {q p : Nat × Nat}
    {lowest : Nat} (h : Route c s (capAt caps) q p lowest) :
    s.Contains p.1 p.2 ∧ min (marker q) lowest ≤ levels.getD p.1 p.2 0 := by
  induction h with
  | single hq => exact ⟨hq, hle q hq⟩
  | @step p p' lowest _ hn hp' ih =>
    obtain ⟨hp, ih⟩ := ih
    refine ⟨hp', ?_⟩
    calc
      min (marker q) (min lowest (capAt caps p')) = min (min (marker q) lowest) (capAt caps p') :=
        (Nat.min_assoc _ _ _).symm
      _ ≤ min (levels.getD p.1 p.2 0) (capAt caps p') := min_le_min_right _ ih
      _ ≤ levels.getD p'.1 p'.2 0 := hrest p p' hp hp' hn

/-- At rest every position has the highest level that comes to it over a path. -/
theorem Carried.isGreatest {levels : Grid Nat} (h : Carried c s marker caps levels)
    (hrest : AtRest c s caps levels) {p : Nat × Nat} (hp : s.Contains p.1 p.2) :
    IsGreatest (carriedLevels c s marker (capAt caps) p) (levels.getD p.1 p.2 0) := by
  refine ⟨h.mem p hp, fun v hv => ?_⟩
  obtain ⟨q, lowest, hroute, rfl⟩ := hv
  exact (hrest.le_of_route h.marker_le hroute).2

end Growth

/-- A reading of the mask as the growth takes it is the level that the mask shows. -/
theorem capAt_map_mod {mask : Raster} (h : mask.format = .gray8) :
    capAt (mask.pixels.map (· % 256)) = mask.level := by
  funext p
  rw [capAt, Raster.level, h, Raster.word, Grid.getD, Grid.getD, Grid.get?_map]
  cases mask.pixels.get? p.1 p.2 <;> rfl

/-- Levels that come over paths make a geodesic reconstruction, if they are at rest whenever it says so. -/
theorem Carried.isGeodesic {c : Connectivity} {s : Size} {marker mask : Raster} {levels : Grid Nat}
    {converged : Bool}
    (hmask : mask.format = .gray8) (h : Carried c s marker.level (mask.pixels.map (· % 256)) levels)
    (hrest : converged = true → AtRest c s (mask.pixels.map (· % 256)) levels) (iterations : Nat) :
    Reconstruction.IsGeodesic ⟨⟨.gray8, marker.resolution, levels⟩, converged, iterations⟩ c s marker mask := by
  have hcaps := capAt_map_mod hmask
  have hle : ∀ p, s.Contains p.1 p.2 → levels.getD p.1 p.2 0 ≤ mask.level p := fun p hp => by
    rw [← hcaps]
    exact le_of_mem_carriedLevels (h.mem p hp)
  have hword : ∀ p, s.Contains p.1 p.2 →
      Raster.level ⟨.gray8, marker.resolution, levels⟩ p = levels.getD p.1 p.2 0 := fun p hp =>
    Nat.mod_eq_of_lt (Nat.lt_of_le_of_lt (hle p hp) (PixelFormat.grayOf_lt ..))
  refine ⟨⟨rfl, h.size, rfl, fun x y v hv => ?_⟩, fun p hp => ?_, fun p hp => ?_, fun p hp => ?_⟩
  · have hxy : s.Contains x y := by
      by_contra hout
      rw [Grid.get?_eq_none.mpr (h.size ▸ hout)] at hv
      exact absurd hv.symm (Option.some_ne_none v)
    have hlt := Nat.lt_of_le_of_lt (hle (x, y) hxy) (PixelFormat.grayOf_lt ..)
    rw [Grid.getD, hv] at hlt
    exact Nat.le_of_lt_succ hlt
  · rw [hword p hp, ← hcaps]
    exact h.marker_le p hp
  · rw [hword p hp]
    exact hle p hp
  · rw [hword p hp, ← hcaps]
    obtain ⟨v, hv⟩ : ∃ v, IsGreatest (carriedLevels c s marker.level (capAt (mask.pixels.map (· % 256))) p) v :=
      exists_isGreatest_carriedLevels hp
    refine ⟨v, hv, hv.2 (h.mem p hp), fun hconverged => ?_⟩
    exact (h.isGreatest (hrest hconverged) hp).unique hv

end Morphology

end ScannedPage
