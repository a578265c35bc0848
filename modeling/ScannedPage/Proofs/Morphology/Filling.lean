import ScannedPage.Proofs.Morphology.Growth

/-!
# Filling holes floods a page from its border

A flood from the border rises over a path to its largest level, and it comes to a position over the path where this
is smallest (`floodLevels`). Turned into its inverse, a page lets through what it held back: the smallest level on
a path of the inverse is the inverse of the largest one on the page (`Passage.route`, `Route.passage`). The marker
has levels on the border alone, so what it brings to a position comes from there, or is the level zero that any
path from the border brings as well (`isLeast_floodLevels`).

A filled page is its own flood: on the best path from the border every position is already as high as the flood
that comes over it (`Passage.lower`). So filling it again changes nothing.
-/

namespace ScannedPage

namespace Raster

variable {r : Raster} {s : Size} {p : Resolution}

/-- A gray page with its words in range shows its words. -/
theorem HasShape.level_eq (h : r.HasShape .gray8 s p) (q : Nat × Nat) : r.level q = r.word q.1 q.2 := by
  rw [level, h.format_eq]
  exact Nat.mod_eq_of_lt (Nat.lt_succ_of_le (h.word_le q.1 q.2))

/-- Gray pages of one shape that show the same levels are equal. -/
theorem HasShape.ext_level {r' : Raster} (h : r.HasShape .gray8 s p) (h' : r'.HasShape .gray8 s p)
    (hlevel : ∀ q, s.Contains q.1 q.2 → r.level q = r'.level q) : r = r' := by
  refine ext_word (h.format_eq.trans h'.format_eq.symm) (h.resolution_eq.trans h'.resolution_eq.symm)
    (h.size_eq.trans h'.size_eq.symm) fun x y hxy => ?_
  have heq := hlevel (x, y) (h.size_eq ▸ hxy)
  rwa [h.level_eq, h'.level_eq] at heq

/-- A gray page has an inverse, which shows the inverse of every level. -/
theorem HasShape.invert (h : r.HasShape .gray8 s p) :
    Returns r.invert fun inverse => inverse.HasShape .gray8 s p ∧
      ∀ q, s.Contains q.1 q.2 → inverse.level q = 255 - r.level q := by
  have hshape : (r.mapWords .gray8 PixelFormat.gray8.inverseOf).HasShape .gray8 s p :=
    h.mapWords .gray8 fun v hv => PixelFormat.inverseOf_of_le hv ▸ Nat.sub_le 255 v
  simp only [Raster.invert, h.format_eq]
  refine returns_ok ⟨hshape, fun q hq => (hshape.level_eq q).trans ?_⟩
  have hsize : r.pixels.size = s := h.size_eq
  rw [h.level_eq, word, Raster.mapWords, Grid.getD, Grid.get?_map, Grid.get?_of_contains (hsize ▸ hq) 0]
  exact PixelFormat.inverseOf_of_le (h.word_le q.1 q.2)

end Raster

namespace Morphology

/-- A path of neighbours inside an image leads from a position to another one, and the largest level on it is
`highest`. -/
inductive Passage (c : Connectivity) (s : Size) (levels : Nat × Nat → Nat) (q : Nat × Nat) : Nat × Nat → Nat → Prop
  | arrive (hq : s.Contains q.1 q.2) : Passage c s levels q q (levels q)
  | step {p p' : Nat × Nat} {highest : Nat} (hp : s.Contains p.1 p.2) (hn : c.Neighbours p p')
      (h : Passage c s levels q p' highest) : Passage c s levels q p (max (levels p) highest)

/-- The largest levels on the paths from a position to the border of an image. -/
def floodLevels (c : Connectivity) (s : Size) (levels : Nat × Nat → Nat) (p : Nat × Nat) : Set Nat :=
  { v | ∃ q, onBorder s q.1 q.2 = true ∧ Passage c s levels q p v }

/-- A filling of holes lowers no pixel and keeps the border. Once it came to rest, every pixel has the level to
which a flood from the border has to rise before it gets there. -/
structure Reconstruction.FillsHoles (g : Reconstruction) (c : Connectivity) (s : Size) (r : Raster) : Prop where
  shape : g.image.HasShape .gray8 s r.resolution
  le_level : ∀ p, s.Contains p.1 p.2 → r.level p ≤ g.image.level p
  border : ∀ p, s.Contains p.1 p.2 → onBorder s p.1 p.2 = true → g.image.level p = r.level p
  flood : g.converged = true → ∀ p, s.Contains p.1 p.2 → IsLeast (floodLevels c s r.level p) (g.image.level p)

section Passages

variable {c : Connectivity} {s : Size} {levels mask : Nat × Nat → Nat} {p q : Nat × Nat} {v : Nat}

/-- A path to the border leads back under the inverse mask, and the inverse of its largest level is the smallest on
the way. -/
theorem Passage.route (hmask : ∀ x, s.Contains x.1 x.2 → mask x = 255 - levels x) (h : Passage c s levels q p v) :
    Route c s mask q p (255 - v) := by
  induction h with
  | arrive hq => exact hmask q hq ▸ Route.single hq
  | @step p p' highest hp hn _ ih =>
    have hroute := ih.step hn.symm hp
    have hmin : min (255 - highest) (mask p) = 255 - max (levels p) highest := by
      rw [hmask p hp]
      omega
    rwa [hmin] at hroute

/-- A path under the inverse mask leads back over the page, and the inverse of its smallest level is the largest on
the way. -/
theorem Route.passage (hle : ∀ x, levels x ≤ 255) (hmask : ∀ x, s.Contains x.1 x.2 → mask x = 255 - levels x)
    (h : Route c s mask q p v) : Passage c s levels q p (255 - v) := by
  induction h with
  | single hq =>
    have harrive : Passage c s levels q q (levels q) := .arrive hq
    have hback : 255 - mask q = levels q := by
      rw [hmask q hq]
      exact Nat.sub_sub_self (hle q)
    rwa [← hback] at harrive
  | @step p p' lowest _ hn hp' ih =>
    have hpassage := Passage.step hp' hn.symm ih
    have hmax : max (levels p') (255 - lowest) = 255 - min lowest (mask p') := by
      have := hle p'
      rw [hmask p' hp']
      omega
    rwa [hmax] at hpassage

/-- A path starts inside. -/
theorem Passage.contains (h : Passage c s levels q p v) : s.Contains p.1 p.2 := by
  cases h with
  | arrive hq => exact hq
  | step hp _ _ => exact hp

/-- The level at the start of a path is at most its largest one. -/
theorem Passage.level_le (h : Passage c s levels q p v) : levels p ≤ v := by
  cases h with
  | arrive hq => exact Nat.le_refl _
  | step _ _ _ => exact Nat.le_max_left _ _

/-- The levels on a path bound its largest one. -/
theorem Passage.le (hle : ∀ x, levels x ≤ 255) (h : Passage c s levels q p v) : v ≤ 255 := by
  induction h with
  | arrive hq => exact hle q
  | step _ _ _ ih => exact Nat.max_le.mpr ⟨hle _, ih⟩

/-- A row leads from every position to the border. -/
theorem exists_mem_floodLevels (c : Connectivity) (levels : Nat × Nat → Nat) (hp : s.Contains p.1 p.2) :
    ∃ v, v ∈ floodLevels c s levels p := by
  obtain ⟨x, y⟩ := p
  induction x with
  | zero => exact ⟨_, (0, y), by simp [onBorder], .arrive hp⟩
  | succ x ih =>
    obtain ⟨v, q, hq, hpassage⟩ := ih ⟨Nat.lt_of_succ_lt hp.1, hp.2⟩
    have hn : c.Neighbours (x + 1, y) (x, y) := by
      have hleft : ((x : Int) - (x + 1 : Nat), (y : Int) - y) = (-1, 0) := by
        simp only [Prod.mk.injEq]
        omega
      rw [Connectivity.Neighbours, hleft]
      cases c <;> decide
    exact ⟨_, q, hq, .step hp hn hpassage⟩

/-- Over the best path to the border every position of a flooded page is as high as the flood there. -/
theorem Passage.lower {flooded : Nat × Nat → Nat} (hq : onBorder s q.1 q.2 = true)
    (hflood : ∀ x, s.Contains x.1 x.2 → ∀ u ∈ floodLevels c s levels x, flooded x ≤ u)
    (h : Passage c s levels q p v) : ∃ u ≤ v, Passage c s flooded q p u := by
  induction h with
  | arrive hin => exact ⟨flooded q, hflood q hin _ ⟨q, hq, .arrive hin⟩, .arrive hin⟩
  | step hp hn h ih =>
    obtain ⟨u, hu, hpassage⟩ := ih
    have hhere := hflood _ hp _ ⟨q, hq, .step hp hn h⟩
    exact ⟨_, Nat.max_le.mpr ⟨hhere, Nat.le_trans hu (Nat.le_max_right _ _)⟩, .step hp hn hpassage⟩

/-- The smallest level on a path is at most the level at its start. -/
theorem Route.lowest_le_start (h : Route c s mask q p v) : v ≤ mask q := by
  induction h with
  | single hq => exact Nat.le_refl _
  | step _ _ _ ih => exact Nat.le_trans (Nat.min_le_left _ _) ih

/-- Under the inverse of a page, a marker that has the levels of the border alone brings every position the inverse
of its flood. -/
theorem isLeast_floodLevels {marker : Nat × Nat → Nat} (hle : ∀ x, levels x ≤ 255)
    (hmask : ∀ x, s.Contains x.1 x.2 → mask x = 255 - levels x)
    (hmarker : ∀ x, marker x = if onBorder s x.1 x.2 = true then mask x else 0) (hp : s.Contains p.1 p.2)
    (h : IsGreatest (carriedLevels c s marker mask p) v) : IsLeast (floodLevels c s levels p) (255 - v) := by
  have hcarried : ∀ u ∈ floodLevels c s levels p, 255 - u ≤ v := by
    rintro u ⟨q, hq, hpassage⟩
    have hroute := hpassage.route hmask
    refine h.2 ⟨q, 255 - u, hroute, ?_⟩
    rw [hmarker q, if_pos hq]
    exact (Nat.min_eq_right hroute.lowest_le_start).symm
  refine ⟨?_, fun u hu => ?_⟩
  · obtain ⟨q, lowest, hroute, hv⟩ := h.1
    rw [hmarker q] at hv
    split at hv
    · next hq =>
      rw [Nat.min_eq_right hroute.lowest_le_start] at hv
      exact ⟨q, hq, hv ▸ hroute.passage hle hmask⟩
    · -- the marker brings nothing, so no path to the border stays below the highest level
      obtain ⟨u, hu⟩ := exists_mem_floodLevels c levels hp
      have hbound : u ≤ 255 := by
        obtain ⟨_, _, hpassage⟩ := hu
        exact hpassage.le hle
      have hlow := hcarried u hu
      have heq : 255 - v = u := by omega
      exact heq ▸ hu
  · have := hcarried u hu
    omega

end Passages

section Filling

variable {c : Connectivity} {s : Size} {r : Raster}

/-- The marker of a filling has the levels of the inverted page on the border alone. -/
theorem level_borderMarker {inverse : Raster} {d : Resolution} (h : inverse.HasShape .gray8 s d) (x : Nat × Nat) :
    (Raster.ofFn .gray8 r.resolution s fun x y => if onBorder s x y then inverse.word x y else 0).level x =
      if onBorder s x.1 x.2 = true then inverse.level x else 0 := by
  have hmarker : (Raster.ofFn .gray8 r.resolution s fun x y =>
      if onBorder s x y then inverse.word x y else 0).HasShape .gray8 s r.resolution := by
    refine Raster.hasShape_ofFn _ _ _ fun x y => ?_
    split
    · exact h.word_le x y
    · exact Nat.zero_le _
  rw [hmarker.level_eq, h.level_eq, Raster.word_ofFn]
  split
  · rfl
  · next hout =>
    have hsize : inverse.pixels.size = s := h.size_eq
    have hzero : inverse.word x.1 x.2 = 0 := Grid.getD_of_not_contains (hsize ▸ hout) 0
    rw [hzero, ite_self]

/-- The inverse of a reconstruction under the inverted page fills it. -/
theorem Reconstruction.IsGeodesic.fillsHoles {grown : Reconstruction} {marker inverse image : Raster}
    (h : r.HasShape .gray8 s r.resolution) (hinverse : ∀ x, s.Contains x.1 x.2 → inverse.level x = 255 - r.level x)
    (hmarker : ∀ x, marker.level x = if onBorder s x.1 x.2 = true then inverse.level x else 0)
    (hgrown : grown.IsGeodesic c s marker inverse) (hshape : image.HasShape .gray8 s r.resolution)
    (himage : ∀ x, s.Contains x.1 x.2 → image.level x = 255 - grown.image.level x) :
    Reconstruction.FillsHoles { grown with image } c s r := by
  have hle : ∀ x, r.level x ≤ 255 := fun x => (h.level_eq x).symm ▸ h.word_le x.1 x.2
  refine ⟨hshape, fun p hp => ?_, fun p hp hborder => ?_, fun hrest p hp => ?_⟩
  · have hmask := hgrown.le_mask p hp
    have hlevel := hle p
    rw [hinverse p hp] at hmask
    rw [himage p hp]
    omega
  · have hlow := hgrown.marker_le p hp
    have hmask := hgrown.le_mask p hp
    have hlevel := hle p
    rw [hmarker p, if_pos hborder, Nat.min_self] at hlow
    rw [himage p hp, Nat.le_antisymm hmask hlow, hinverse p hp]
    exact Nat.sub_sub_self hlevel
  · obtain ⟨v, hv, _, heq⟩ := hgrown.highest p hp
    rw [himage p hp, heq hrest]
    exact isLeast_floodLevels hle hinverse hmarker hp hv

/-- Every gray page can be filled. -/
theorem fillHoles_fills (h : r.HasShape .gray8 s r.resolution) (c : Connectivity) :
    Returns (fillHoles r c) fun filled => filled.FillsHoles c s r := by
  obtain rfl := h.size_eq
  simp only [fillHoles, require_eq_ok h.format_eq]
  refine Returns.bind (Q := fun _ => True) (returns_ok trivial) fun _ _ => ?_
  refine (h.invert.mapError _).bind fun inverse hinverse => ?_
  obtain ⟨hshape, hinverse⟩ := hinverse
  refine (reconstruct_geodesic (isGray_ofFn ..) ⟨hshape.format_eq, hshape.size_eq⟩ c).bind fun grown hgrown => ?_
  refine (hgrown.shape.invert.mapError _).bind fun image himage => ?_
  obtain ⟨himageShape, himage⟩ := himage
  exact returns_pure (hgrown.fillsHoles h hinverse (level_borderMarker hshape) himageShape himage)

/-- Filling a filled page changes nothing, if both come to rest. -/
theorem Reconstruction.FillsHoles.image_eq {filled again : Reconstruction} (h : filled.FillsHoles c s r)
    (h' : again.FillsHoles c s filled.image) (hrest : filled.converged = true) (hrest' : again.converged = true) :
    again.image = filled.image := by
  refine Raster.HasShape.ext_level (h.shape.resolution_eq ▸ h'.shape) h.shape fun p hp => ?_
  refine Nat.le_antisymm ?_ (h'.le_level p hp)
  obtain ⟨q, hq, hpassage⟩ := (h.flood hrest p hp).1
  obtain ⟨u, hu, hlower⟩ := hpassage.lower hq fun x hx _ hv => (h.flood hrest x hx).2 hv
  exact Nat.le_trans ((h'.flood hrest' p hp).2 ⟨q, hq, hlower⟩) hu

end Filling

/-- The holes of any gray page that fits can be filled, and the scans in words do so without fault. This lowers no
pixel, keeps the border, and gives every pixel the smallest over the paths to the border of the largest level on
the path, once it came to rest. Filling the result again changes nothing if that comes to rest as well. -/
theorem fillHoles_floods {r : Raster} {s : Size} (hs : s.FitsInt32) (h : r.HasShape .gray8 s r.resolution)
    (c : Connectivity) :
    Returns (fillHoles r c) fun filled => fillHolesInWords? r c = some (.ok filled) ∧ filled.FillsHoles c s r ∧
      Returns (fillHoles filled.image c) fun again => fillHolesInWords? filled.image c = some (.ok again) ∧
        (filled.converged = true → again.converged = true → again.image = filled.image) := by
  obtain ⟨filled, hfilled, hfills⟩ := fillHoles_fills h c
  have hshape : filled.image.HasShape .gray8 s filled.image.resolution :=
    hfills.shape.resolution_eq.symm ▸ hfills.shape
  obtain ⟨again, hagain, hfillsAgain⟩ := fillHoles_fills hshape c
  refine ⟨filled, hfilled, ?_, hfills, again, hagain, ?_, hfills.image_eq hfillsAgain⟩
  · rw [fillHolesInWords?_eq_some (h.size_eq.symm ▸ hs), hfilled]
  · rw [fillHolesInWords?_eq_some (hshape.size_eq.symm ▸ hs), hagain]

/-- A dark pixel in the middle of a gray court rises to the court once its filling came to rest, and no higher,
since the wall around the court has a gate. -/
theorem fillHoles_court_with_gate :
    let page : Raster := ⟨.gray8, .standard, ⟨⟨5, 5, by decide, by decide⟩,
      #[200, 200, 200, 200, 200,
        200, 150, 150, 150, 200,
        200, 150, 10, 150, 200,
        200, 150, 150, 150, 120,
        200, 200, 200, 200, 200], rfl⟩⟩
    page.size.FitsInt32 ∧ ∃ filled, fillHoles page .fourWay = .ok filled ∧
      fillHolesInWords? page .fourWay = some (.ok filled) ∧ filled.FillsHoles .fourWay page.size page ∧
      filled.image.level (4, 3) = 120 ∧ (filled.converged = true → filled.image.level (2, 2) = 150) := by
  intro page
  have hpage : page.HasShape .gray8 page.size page.resolution := Raster.InRange.hasShape (by decide +kernel)
  have hfits : page.size.FitsInt32 := by decide
  obtain ⟨filled, hfilled, hwords, hfills, _⟩ := fillHoles_floods hfits hpage .fourWay
  refine ⟨hfits, filled, hfilled, hwords, hfills, hfills.border (4, 3) (by decide) (by decide), fun hrest => ?_⟩
  obtain ⟨⟨q, hq, hpassage⟩, hleast⟩ := hfills.flood hrest (2, 2) (by decide)
  refine Nat.le_antisymm (hleast ⟨(4, 3), by decide, ?_⟩) ?_
  · -- the way through the gate
    have hright : Connectivity.fourWay.Neighbours (2, 2) (3, 2) := by decide
    have hdown : Connectivity.fourWay.Neighbours (3, 2) (3, 3) := by decide
    have hgate : Connectivity.fourWay.Neighbours (3, 3) (4, 3) := by decide
    exact .step (by decide) hright <| .step (by decide) hdown <| .step (by decide) hgate <| .arrive (by decide)
  · -- every way out begins in the court
    generalize filled.image.level (2, 2) = v at hpassage
    cases hpassage with
    | arrive _ => exact absurd hq (by decide)
    | @step _ p' highest _ hn h =>
      have hcourt : ∀ x < 5, ∀ y < 5, Connectivity.fourWay.Neighbours (2, 2) (x, y) → 150 ≤ page.level (x, y) := by
        decide +kernel
      have hlevel := hcourt p'.1 h.contains.1 p'.2 h.contains.2 hn
      exact Nat.le_trans hlevel (Nat.le_trans h.level_le (Nat.le_max_right _ _))

end Morphology

end ScannedPage
