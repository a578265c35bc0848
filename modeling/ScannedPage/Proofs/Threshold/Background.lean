import ScannedPage.Proofs.Counting
import ScannedPage.Proofs.Levels
import ScannedPage.Proofs.Morphology.Filling
import ScannedPage.Proofs.Threshold

/-!
# The background under the ink

The background method takes the inverse of a reconstruction for its background. The reconstruction starts from the
inverted paper and grows under the inverted page, so its inverse is never below the page, is the page itself at the
paper, and under the ink never falls below the darkest paper (`reconstructPaper_liesOver`). None of that waits for
the reconstruction to come to rest. So the distances of the ink from the background are not negative, and the mean
distance that the method stops at is a background that shows the ink everywhere (`gatos_background`).
-/

namespace ScannedPage.Threshold

open Morphology Scalar

section Background

/-- The background that a reconstruction of the inverted page leaves. -/
def backgroundOf (grown : Reconstruction) : Raster := grown.image.mapWords .gray8 (255 - ·)

/-- The levels of a filtered page at its paper. -/
def paperLevels (s : Size) (filtered ink : Raster) : Set Nat :=
  { v | ∃ p : Nat × Nat, s.Contains p.1 p.2 ∧ ¬ ink.IsBlack p ∧ filtered.word p.1 p.2 = v }

/-- A background lies over a filtered page: it is nowhere below the page and is the page at the paper, and at the
ink it is not below the least level of the paper. -/
structure LiesOver (s : Size) (filtered ink background : Raster) : Prop where
  le_word : ∀ p : Nat × Nat, s.Contains p.1 p.2 → filtered.word p.1 p.2 ≤ background.word p.1 p.2
  word_le : ∀ p : Nat × Nat, s.Contains p.1 p.2 → background.word p.1 p.2 ≤ 255
  paper_eq : ∀ p : Nat × Nat, s.Contains p.1 p.2 → ¬ ink.IsBlack p →
    background.word p.1 p.2 = filtered.word p.1 p.2
  ink_ge : ∀ p : Nat × Nat, s.Contains p.1 p.2 → ink.IsBlack p → ∀ v, IsLeast (paperLevels s filtered ink) v →
    v ≤ background.word p.1 p.2

variable {s : Size} {filtered ink : Raster} {d : Resolution}

/-- The background is the inverse of the levels of the reconstruction. -/
theorem word_backgroundOf {grown : Reconstruction} (h : grown.image.HasShape .gray8 s d) {p : Nat × Nat}
    (hp : s.Contains p.1 p.2) : (backgroundOf grown).word p.1 p.2 = 255 - grown.image.level p := by
  have hsize : grown.image.pixels.size = s := h.size_eq
  rw [h.level_eq, backgroundOf, Raster.word, Raster.mapWords, Grid.getD, Grid.get?_map,
    Grid.get?_of_contains (hsize ▸ hp) 0]
  rfl

/-- The marker of the paper has the levels of the inverted page there, and none at the ink or outside. -/
theorem level_paperMarker {inverse : Raster} (h : inverse.HasShape .gray8 s d) (p : Nat × Nat) :
    (Raster.ofFn .gray8 filtered.resolution s fun x y =>
      if ink.word x y != 0 then 0 else inverse.word x y).level p =
      if s.Contains p.1 p.2 ∧ ¬ ink.word p.1 p.2 ≠ 0 then inverse.level p else 0 := by
  have hmarker : (Raster.ofFn .gray8 filtered.resolution s fun x y =>
      if ink.word x y != 0 then 0 else inverse.word x y).HasShape .gray8 s filtered.resolution := by
    refine Raster.hasShape_ofFn _ _ _ fun x y => ?_
    split
    · exact Nat.zero_le _
    · exact h.word_le x y
  rw [hmarker.level_eq, h.level_eq, Raster.word_ofFn]
  by_cases hp : s.Contains p.1 p.2 <;> by_cases hink : ink.word p.1 p.2 = 0 <;> simp [hp, hink]

/-- What a reconstruction under the inverted page leaves lies over the page. -/
theorem liesOver_of_isGeodesic {marker inverse : Raster} {grown : Reconstruction}
    (h : filtered.HasShape .gray8 s d)
    (hinverse : ∀ p, s.Contains p.1 p.2 → inverse.level p = 255 - filtered.level p)
    (hmarker : ∀ p, marker.level p = if s.Contains p.1 p.2 ∧ ¬ ink.IsBlack p then inverse.level p else 0)
    (hgrown : grown.IsGeodesic .eightWay s marker inverse) : LiesOver s filtered ink (backgroundOf grown) := by
  have hword (p : Nat × Nat) : filtered.level p = filtered.word p.1 p.2 := h.level_eq p
  have hbyte (p : Nat × Nat) : filtered.word p.1 p.2 ≤ 255 := h.word_le p.1 p.2
  refine ⟨fun p hp => ?_, fun p hp => ?_, fun p hp hpaper => ?_, fun p hp _ v hv => ?_⟩ <;>
    rw [word_backgroundOf hgrown.shape hp]
  · have hmask := hgrown.le_mask p hp
    have := hbyte p
    rw [hinverse p hp, hword] at hmask
    omega
  · omega
  · have hmask := hgrown.le_mask p hp
    have hlow := hgrown.marker_le p hp
    have := hbyte p
    rw [hmarker, if_pos ⟨hp, hpaper⟩, hinverse p hp, hword] at hlow
    rw [hinverse p hp, hword] at hmask
    omega
  · -- whatever has come here started at the paper, or is the level zero
    obtain ⟨_, ⟨⟨q, lowest, hroute, rfl⟩, _⟩, hle, _⟩ := hgrown.highest p hp
    rw [hmarker] at hle
    split at hle
    · next hq =>
      have hleast := hv.2 ⟨q, hq.1, hq.2, rfl⟩
      have := hbyte q
      rw [hinverse q hq.1, hword] at hle
      omega
    · obtain ⟨q', _, _, rfl⟩ := hv.1
      have := hbyte q'
      omega

/-- The paper of every filtered page is reconstructed, and what that leaves lies over the page. -/
theorem reconstructPaper_liesOver (h : filtered.HasShape .gray8 s d) (ink : Raster) :
    Returns (reconstructPaper filtered ink) fun grown => LiesOver s filtered ink (backgroundOf grown) := by
  obtain rfl := h.size_eq
  refine (h.invert.mapError _).bind fun inverse hinverse => ?_
  obtain ⟨hshape, hlevel⟩ := hinverse
  refine ((reconstruct_geodesic (isGray_ofFn ..) ⟨hshape.format_eq, hshape.size_eq⟩ .eightWay).mapError _).mono
    fun grown hgrown => ?_
  exact liesOver_of_isGeodesic h hlevel (level_paperMarker hshape) hgrown

end Background

variable {K : Type} [Scalar K] [DecidableLT K]

section Distances

variable {filtered ink background : Raster}

/-- A background is brighter than a filtered page at a position. -/
def Covers (filtered background : Raster) (p : Nat × Nat) : Prop := filtered.word p.1 p.2 < background.word p.1 p.2

/-- The mean distance of the ink of a filtered page from a background. -/
def meanDistance (K : Type) [Scalar K] (filtered ink background : Raster) : K :=
  let d : Distances K := distances filtered ink background
  d.inkDistance / ((d.ink : Nat) : K)

/-- The mean level of a background at the paper. -/
def meanPaper (K : Type) [Scalar K] (filtered ink background : Raster) : K :=
  let d : Distances K := distances filtered ink background
  d.paperLevel / ((d.paper : Nat) : K)

/-- The position at a place of a scan. -/
def scanned (s : Size) (i : Nat) : Nat × Nat := (i % s.width, i / s.width)

/-- The sums over the first places of a scan: the ink is counted, its distance is not negative, and it is at least
one if the background covers ink anywhere. -/
structure Distances.Upto (s : Size) (filtered ink background : Raster) (n : Nat) (d : Distances K) : Prop where
  ink_eq : d.ink = Nat.count (fun i => ink.IsBlack (scanned s i)) n
  nonneg : ((0 : Nat) : K) ≤ d.inkDistance
  one_le : (∃ i < n, ink.IsBlack (scanned s i) ∧ Covers filtered background (scanned s i)) →
    ((1 : Nat) : K) ≤ d.inkDistance

/-- The sums keep that at the next place, if the background is a level there and not below the page. -/
theorem Distances.Upto.add [LawfulLevels K] {s : Size} {n : Nat} {d : Distances K}
    (h : d.Upto s filtered ink background n) {p : Nat × Nat} (hp : p = scanned s n)
    (hle : filtered.word p.1 p.2 ≤ background.word p.1 p.2) (hbyte : background.word p.1 p.2 ≤ 255) :
    (d.add (ink.word p.1 p.2 != 0) (filtered.word p.1 p.2)
      (background.word p.1 p.2)).Upto s filtered ink background
      (n + 1) := by
  have hterm : ((0 : Nat) : K) ≤ (background.word p.1 p.2 : K) - (filtered.word p.1 p.2 : K) :=
    LawfulLevels.sub_nonneg hle hbyte
  by_cases hink : ink.IsBlack p
  · rw [Distances.add, if_pos (bne_iff_ne.mpr hink)]
    refine ⟨?_, LawfulLevels.add_nonneg h.nonneg hterm, ?_⟩
    · rw [Nat.count_succ, if_pos (hp ▸ hink), ← h.ink_eq]
    · rintro ⟨i, hi, hblack, hcovers⟩
      rcases Nat.lt_succ_iff_lt_or_eq.mp hi with hbefore | rfl
      · exact LawfulLevels.one_le_add_left (h.one_le ⟨i, hbefore, hblack, hcovers⟩) hterm
      · exact LawfulLevels.one_le_add_right h.nonneg (LawfulLevels.one_le_sub (hp ▸ hcovers) hbyte)
  · rw [Distances.add, if_neg fun hword => hink (bne_iff_ne.mp hword)]
    refine ⟨?_, h.nonneg, ?_⟩
    · rw [Nat.count_succ, if_neg (hp ▸ hink), ← h.ink_eq]
      rfl
    · rintro ⟨i, hi, hblack, hcovers⟩
      rcases Nat.lt_succ_iff_lt_or_eq.mp hi with hbefore | rfl
      · exact h.one_le ⟨i, hbefore, hblack, hcovers⟩
      · exact absurd (hp ▸ hblack) hink

/-- The sums over a page and a background that lies over it. -/
theorem upto_distances [LawfulLevels K] {s : Size} (hsize : filtered.size = s)
    (h : LiesOver s filtered ink background) :
    (distances filtered ink background : Distances K).Upto s filtered ink background s.area := by
  subst hsize
  unfold distances
  refine scan_induction filtered.size.area _ _
    (fun n d => Distances.Upto filtered.size filtered ink background n d)
    ⟨rfl, LawfulLevels.zero_le_zero, fun hnone => ?_⟩ fun n hn d hd => ?_
  · obtain ⟨i, hi, _⟩ := hnone
    exact absurd hi (Nat.not_lt_zero i)
  · have hin := Size.contains_mod_div hn
    exact hd.add rfl (h.le_word _ hin) (h.word_le _ hin)

/-- Where the mean distance of the ink is not positive, a background that lies over the page shows the ink
everywhere. -/
theorem LiesOver.eq_of_meanDistance_le [LawfulLevels K] {s : Size} (hsize : filtered.size = s)
    (harea : s.area < 2 ^ 64)
    (h : LiesOver s filtered ink background) (hmean : meanDistance K filtered ink background ≤ ((0 : Nat) : K))
    {p : Nat × Nat} (hp : s.Contains p.1 p.2) (hink : ink.IsBlack p) :
    background.word p.1 p.2 = filtered.word p.1 p.2 := by
  have hsums := upto_distances (K := K) hsize h
  have hplace : scanned s (s.index p.1 p.2) = p := Prod.ext (Size.index_mod hp.1) (Size.index_div hp.1)
  have hcount : (distances filtered ink background : Distances K).ink ≤ s.area := by
    rw [hsums.ink_eq]
    exact Nat.count_le _
  have hsome : (distances filtered ink background : Distances K).ink ≠ 0 := by
    rw [hsums.ink_eq]
    exact Nat.count_ne_iff_exists.mpr ⟨s.index p.1 p.2, Size.index_lt hp, hplace.symm ▸ hink⟩
  by_contra hne
  have hcovers : Covers filtered background p := Nat.lt_of_le_of_ne (h.le_word p hp) (Ne.symm hne)
  have hone := hsums.one_le ⟨s.index p.1 p.2, Size.index_lt hp, hplace.symm ▸ ⟨hink, hcovers⟩⟩
  exact LawfulLevels.div_pos hone hsome (Nat.lt_of_le_of_lt hcount harea) hmean

end Distances

section Method

variable [DecidableLE K] {r filtered ink : Raster} {window : Window} {k noise : K} {adjustment : Int}

/-- The filtered page and its ink, as the background method splits a page. -/
def Splits (r : Raster) (window : Window) (k noise : K) (adjustment : Int) (filtered ink : Raster) : Prop :=
  ∃ field, wiener r wienerSide noise = .ok filtered ∧ niblackField filtered window k adjustment = .ok field ∧
    (Surface.field field).binarize filtered = .ok ink

/-- The filtered page has both ink and paper. -/
def TwoSided (s : Size) (ink : Raster) : Prop :=
  (∃ p : Nat × Nat, s.Contains p.1 p.2 ∧ ink.IsBlack p) ∧ ∃ p : Nat × Nat, s.Contains p.1 p.2 ∧ ¬ ink.IsBlack p

/-- Every gray page is split, into a filtered page of levels and a page of its size. -/
theorem exists_splits [LawfulLevels K] (hgray : r.format = .gray8) (window : Window) (k noise : K)
    (adjustment : Int) :
    ∃ filtered ink, Splits r window k noise adjustment filtered ink ∧
      filtered.HasShape .gray8 r.size r.resolution ∧ ink.size = r.size := by
  have hwiener : Returns (wiener r wienerSide noise) fun filtered =>
      filtered.HasShape .gray8 r.size r.resolution := by
    rw [wiener, requireGray_eq_ok hgray]
    refine (localStats_returns ⟨hgray, rfl⟩ _ false).bind fun stats _ => returns_pure ?_
    exact Raster.hasShape_ofFn _ _ _ fun x y => LawfulLevels.toLevel_le _
  obtain ⟨filtered, hfiltered, hshape⟩ := hwiener
  have hfilteredGray : IsGray r.size filtered := ⟨hshape.format_eq, hshape.size_eq⟩
  obtain ⟨field, hfield, hfits⟩ := niblackField_returns hfilteredGray window k adjustment
  obtain ⟨ink, hink, hinkShape⟩ := Surface.binarize_returns hfits hfilteredGray
  exact ⟨filtered, ink, ⟨field, hfiltered, hfield, hink⟩, hshape, hinkShape.size_eq⟩

/-- A count of the ink tells whether a page has both ink and paper. -/
theorem twoSided_iff (ink : Raster) : TwoSided ink.size ink ↔
    ¬ (ink.words.countP (· != 0) = 0 ∨ ink.words.countP (· != 0) = ink.words.size) := by
  have hwords : ink.words.size = ink.size.positions.card := by
    rw [Size.card_positions]
    exact ink.pixels.size_cells
  rw [Raster.countP_words, hwords, Finset.card_eq_zero, Finset.filter_eq_empty_iff, Finset.card_filter_eq_iff,
    TwoSided]
  simp only [Size.mem_positions]
  push Not
  rfl

/-- What the method makes of the background that it has reached. -/
def resultOver (scale : K) (filtered ink : Raster) (grown : Reconstruction) : Option GatosResult :=
  let background := backgroundOf grown
  let delta := meanDistance K filtered ink background
  let paperMean := meanPaper K filtered ink background
  if delta ≤ ((0 : Nat) : K) ∨ paperMean ≤ ((0 : Nat) : K) then none
  else some ⟨.ofGrid (background.pixels.map (gatosThreshold scale delta paperMean)), grown.converged,
    grown.iterations⟩

/-- The method reaches its background where there is both ink and paper. -/
theorem gatos_eq (hgray : r.format = .gray8) (hsplits : Splits r window k noise adjustment filtered ink)
    {grown : Reconstruction} (hgrown : reconstructPaper filtered ink = .ok grown) (scale : K) :
    gatos r window k scale noise adjustment =
      .ok (if ink.words.countP (· != 0) = 0 ∨ ink.words.countP (· != 0) = ink.words.size then none
        else resultOver scale filtered ink grown) := by
  obtain ⟨field, hfiltered, hfield, hink⟩ := hsplits
  rw [gatos, requireGray_eq_ok hgray]
  simp only [bind, Except.bind, hfiltered, hfield, hink, hgrown]
  by_cases hsides : ink.words.countP (· != 0) = 0 ∨ ink.words.countP (· != 0) = ink.words.size
  · rw [if_pos hsides, if_pos hsides]
    rfl
  · rw [if_neg hsides, if_neg hsides]
    exact (apply_ite Except.ok _ _ _).symm

/-- The method has no field where ink or paper is missing. -/
theorem gatos_of_not_twoSided {s : Size} (hgray : r.format = .gray8) (hfiltered : IsGray s filtered)
    (hsplits : Splits r window k noise adjustment filtered ink) (hone : ¬ TwoSided ink.size ink) (scale : K) :
    gatos r window k scale noise adjustment = .ok none := by
  obtain ⟨grown, hgrown, -⟩ := reconstructPaper_returns hfiltered ink
  rw [gatos_eq hgray hsplits hgrown scale, if_pos (not_not.mp (mt (twoSided_iff ink).mpr hone))]

end Method

/-- The background method splits every gray page into ink and paper, and gives nothing where there is only one of
them. Where there are both it reaches a background that lies over the filtered page, however the reconstruction
ended: every distance of the ink from the background is not negative, and if their mean is not positive, the
background shows the ink everywhere. -/
theorem gatos_background [DecidableLE K] [LawfulLevels K] {r : Raster} (hgray : r.format = .gray8)
    (window : Window) (k noise : K) (adjustment : Int) :
    ∃ filtered ink, Splits r window k noise adjustment filtered ink ∧
      (¬ TwoSided r.size ink → ∀ scale, gatos r window k scale noise adjustment = .ok none) ∧
      (TwoSided r.size ink → ∃ grown, reconstructPaper filtered ink = .ok grown ∧
        (∀ scale, gatos r window k scale noise adjustment = .ok (resultOver scale filtered ink grown)) ∧
        LiesOver r.size filtered ink (backgroundOf grown) ∧
        (∀ p, r.size.Contains p.1 p.2 → ink.IsBlack p →
          ((0 : Nat) : K) ≤ ((backgroundOf grown).word p.1 p.2 : K) - (filtered.word p.1 p.2 : K)) ∧
        (r.size.area < 2 ^ 64 → meanDistance K filtered ink (backgroundOf grown) ≤ ((0 : Nat) : K) →
          ∀ p, r.size.Contains p.1 p.2 → ink.IsBlack p →
            (backgroundOf grown).word p.1 p.2 = filtered.word p.1 p.2)) := by
  obtain ⟨filtered, ink, hsplits, hshape, hsize⟩ := exists_splits hgray window k noise adjustment
  obtain ⟨grown, hgrown, hlies⟩ := reconstructPaper_liesOver hshape ink
  have hgatos := gatos_eq hgray hsplits hgrown
  have hsides := twoSided_iff ink
  rw [hsize] at hsides
  refine ⟨filtered, ink, hsplits, fun hone scale => ?_, fun htwo => ?_⟩
  · rw [hgatos, if_pos (not_not.mp fun hno => hone (hsides.mpr hno))]
  · refine ⟨grown, hgrown, fun scale => ?_, hlies, fun p hp _ => ?_, fun harea hmean p hp hink => ?_⟩
    · rw [hgatos, if_neg (hsides.mp htwo)]
    · exact LawfulLevels.sub_nonneg (hlies.le_word p hp) (hlies.word_le p hp)
    · exact hlies.eq_of_meanDistance_le hshape.size_eq harea hmean hp hink

/-- A dark pixel between two of paper. In exact numbers the background carries the paper over it, so the mean
distance is positive; in floating point, too, whatever background is reached lies over the page. -/
theorem gatos_background_dark_pixel :
    letI := Transcendentals.ofSquares
    let r : Raster := ⟨.gray8, .standard, ⟨⟨3, 1, by decide, by decide⟩, #[200, 20, 201], rfl⟩⟩
    (∃ filtered ink grown, Splits r ⟨3, 1⟩ (0 : ℚ) 0 0 filtered ink ∧ reconstructPaper filtered ink = .ok grown ∧
      (∀ scale, gatos r ⟨3, 1⟩ (0 : ℚ) scale 0 0 = .ok (resultOver scale filtered ink grown)) ∧
      filtered.word 1 0 = 20 ∧ (backgroundOf grown).word 2 0 = 201 ∧ 200 ≤ (backgroundOf grown).word 1 0 ∧
      ¬ meanDistance ℚ filtered ink (backgroundOf grown) ≤ ((0 : Nat) : ℚ)) ∧
    ∃ filtered ink, Splits r ⟨3, 1⟩ (defaultCoefficient : Float) defaultNoise 0 filtered ink ∧
      (TwoSided r.size ink → ∃ grown, reconstructPaper filtered ink = .ok grown ∧
        LiesOver r.size filtered ink (backgroundOf grown)) := by
  let _ := Transcendentals.ofSquares
  intro r
  refine ⟨?rational, ?rounded⟩
  case rounded =>
    obtain ⟨filtered, ink, hsplits, -, hreaches⟩ :=
      gatos_background (r := r) rfl ⟨3, 1⟩ (defaultCoefficient : Float) defaultNoise 0
    refine ⟨filtered, ink, hsplits, fun htwo => ?_⟩
    obtain ⟨grown, hgrown, -, hlies, -⟩ := hreaches htwo
    exact ⟨grown, hgrown, hlies⟩
  obtain ⟨filtered, ink, hsplits, -, hreaches⟩ := gatos_background (r := r) rfl ⟨3, 1⟩ (0 : ℚ) 0 0
  obtain ⟨field, hfiltered, hfield, hink⟩ := hsplits
  have hread : (do
      let filtered ← wiener r wienerSide (0 : ℚ)
      let field ← niblackField filtered ⟨3, 1⟩ (0 : ℚ) 0
      let ink ← (Surface.field field).binarize filtered
      return (List.range 3).map fun x => (filtered.word x 0, ink.word x 0)).toOption =
        some [(200, 0), (20, 1), (201, 0)] := by
    decide +kernel
  simp only [bind, Except.bind, hfiltered, hfield, hink] at hread
  have hrow := Option.some.inj hread
  simp only [List.range, List.range.loop, List.map, List.cons.injEq, Prod.mk.injEq] at hrow
  obtain ⟨⟨hfirst, hfirstPaper⟩, ⟨hdark, hdarkInk⟩, ⟨hlast, hlastPaper⟩, -⟩ := hrow
  have hblack : ink.IsBlack (1, 0) := hdarkInk.trans_ne (by decide)
  obtain ⟨grown, hgrown, hgatos, hlies, -, hmean⟩ :=
    hreaches ⟨⟨(1, 0), by decide, hblack⟩, (0, 0), by decide, not_not.mpr hfirstPaper⟩
  have hleast : IsLeast (paperLevels r.size filtered ink) 200 := by
    refine ⟨⟨(0, 0), by decide, not_not.mpr hfirstPaper, hfirst⟩, ?_⟩
    rintro v ⟨⟨x, y⟩, hp, hpaper, rfl⟩
    obtain rfl : y = 0 := Nat.lt_one_iff.mp hp.2
    have hx : x < 3 := hp.1
    rcases (by omega : x = 0 ∨ x = 1 ∨ x = 2) with rfl | rfl | rfl
    · exact hfirst.ge
    · exact absurd hblack hpaper
    · exact (by decide : 200 ≤ 201).trans hlast.ge
  have hover := hlies.ink_ge (1, 0) (by decide) hblack 200 hleast
  refine ⟨filtered, ink, grown, ⟨field, hfiltered, hfield, hink⟩, hgrown, hgatos, hdark,
    (hlies.paper_eq (2, 0) (by decide) (not_not.mpr hlastPaper)).trans hlast, hover, fun hle => ?_⟩
  have hshown := hmean (by decide) hle (1, 0) (by decide) hblack
  rw [hshown] at hover
  exact absurd (hover.trans_eq hdark) (by decide)

end ScannedPage.Threshold
