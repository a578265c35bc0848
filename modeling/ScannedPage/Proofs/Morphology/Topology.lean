import ScannedPage.Proofs.Morphology
import ScannedPage.Proofs.Morphology.Smoothing
import ScannedPage.Proofs.Region.Correspondence
import ScannedPage.Proofs.Region.InWords
import ScannedPage.Proofs.Region.Picture

/-!
# Smoothing keeps the components of the ink

Walks over the ink of an image, as a part of the plane, are paths of black pixels with eight neighbours each
(`joined_place_iff`). The ink before smoothing and the ink after come from common ink, so a bilevel page and its
smoothed page have the same components, and labelling finds as many of them before as after
(`smoothEdges_keeps_components`).
-/

namespace ScannedPage

namespace Morphology

/-- The place of a position. -/
def place (p : Nat × Nat) : Place := (p.1, p.2)

/-- Positions with different places are different. -/
theorem place_inj {p q : Nat × Nat} : place p = place q ↔ p = q := by
  simp only [place, Prod.ext_iff, Int.natCast_inj]

/-- Eight-way neighbours are the other positions whose places touch. -/
theorem neighbours_eightWay_iff {p q : Nat × Nat} :
    Connectivity.eightWay.Neighbours p q ↔ p ≠ q ∧ Touch (place p) (place q) := by
  obtain ⟨x, y⟩ := p
  obtain ⟨x', y'⟩ := q
  simp only [Connectivity.Neighbours, Connectivity.offsets, List.mem_cons, List.not_mem_nil, or_false,
    Prod.mk.injEq, Touch, place, ne_eq]
  omega

section Walks

variable (r : Raster)

/-- A black pixel is ink at its place. -/
theorem ink_place_iff (p : Nat × Nat) : ink r.pixels (place p) ↔ r.IsBlack p := by
  have hpos : 0 ≤ (p.1 : Int) ∧ 0 ≤ (p.2 : Int) := ⟨Int.natCast_nonneg _, Int.natCast_nonneg _⟩
  change isBlackAt r.pixels p.1 p.2 = true ↔ _
  rw [isBlackAt, if_pos hpos, bne_iff_ne]
  rfl

/-- Ink lies at the places of black pixels. -/
theorem exists_place_eq {q : Place} (h : ink r.pixels q) : ∃ p, r.IsBlack p ∧ place p = q := by
  obtain ⟨hx, hy, _, _⟩ := h.inside
  have hplace : place (q.1.toNat, q.2.toNat) = q := Prod.ext (Int.toNat_of_nonneg hx) (Int.toNat_of_nonneg hy)
  exact ⟨_, (ink_place_iff r _).mp (hplace ▸ h), hplace⟩

/-- Walks over the ink of an image are the eight-way paths of its black pixels. -/
theorem joined_place_iff (a b : Nat × Nat) :
    Joined (ink r.pixels) (place a) (place b) ↔ Connectivity.eightWay.Joins r.IsBlack a b := by
  constructor
  · intro h
    generalize hq : place b = q at h
    induction h generalizing b with
    | refl => exact place_inj.mp hq ▸ .refl
    | tail _ hstep ih =>
      obtain ⟨p, hp, rfl⟩ := exists_place_eq r hstep.1
      have hb : r.IsBlack b := (ink_place_iff r b).mp (hq ▸ hstep.2.1)
      -- a step of a walk may stay where it is, a step of a path may not
      by_cases hsame : p = b
      · exact hsame ▸ ih p rfl
      · exact (ih p rfl).tail ⟨hp, hb, neighbours_eightWay_iff.mpr ⟨hsame, hq ▸ hstep.2.2⟩⟩
  · intro h
    induction h with
    | refl => exact .refl
    | tail _ hlink ih =>
      obtain ⟨hp, hb, hn⟩ := hlink
      exact ih.tail ⟨(ink_place_iff r _).mpr hp, (ink_place_iff r _).mpr hb, (neighbours_eightWay_iff.mp hn).2⟩

end Walks

/-- Every black pixel has a path to the ink that an image keeps. -/
theorem exists_common {r r' : Raster} {M : Place → Prop} (h : Retracts M (ink r.pixels))
    (h' : Retracts M (ink r'.pixels)) {a : Nat × Nat} (ha : r.IsBlack a) :
    ∃ b, r.IsBlack b ∧ r'.IsBlack b ∧ Connectivity.eightWay.Joins r.IsBlack a b := by
  obtain ⟨q, hq, hjoined⟩ := h.reaches (place a) ((ink_place_iff r a).mpr ha)
  obtain ⟨b, hb, rfl⟩ := exists_place_eq r (h.sub q hq)
  exact ⟨b, hb, (ink_place_iff r' b).mp (h'.sub _ hq), (joined_place_iff r a b).mp hjoined⟩

/-- Smoothing keeps the components of the ink. -/
theorem sameComponents_smoothGrid {r out : Raster} (hout : out.pixels = smoothGrid r.pixels) :
    Connectivity.eightWay.SameComponents r.IsBlack out.IsBlack := by
  obtain ⟨_, M, hbefore, hafter, hnear⟩ := exists_core_smoothGrid r.pixels
  rw [← hout] at hafter hnear
  refine ⟨fun a b ha ha' hb hb' => ?_, fun a ha => exists_common hbefore hafter ha, fun a ha => ?_⟩
  · rw [← joined_place_iff r, ← joined_place_iff out]
    exact joined_iff_of_core hbefore hafter hnear ((ink_place_iff r a).mpr ha) ((ink_place_iff out a).mpr ha')
      ((ink_place_iff r b).mpr hb) ((ink_place_iff out b).mpr hb')
  · obtain ⟨b, hb', hb, hjoins⟩ := exists_common hafter hbefore ha
    exact ⟨b, hb, hb', hjoins⟩

/-- The black pixels of a bilevel page make a mask. -/
theorem exists_blackMask {r : Raster} (h : r.format = .bit1) :
    ∃ m : Mask, r.toMask = .ok m ∧ m.size = r.size ∧ m.Selects = r.IsBlack := by
  obtain ⟨m, hm, hsize⟩ := Raster.toMask_returns h
  refine ⟨m, hm, hsize, ?_⟩
  funext p
  rw [Mask.Selects, Raster.get_toMask hm, bne_iff_ne]
  rfl

/-- Labelling a bilevel page is labelling a mask of its black pixels. -/
theorem labelBilevel_eq_ok {r : Raster} {m : Mask} (h : r.format = .bit1) (hm : r.toMask = .ok m)
    (c : Connectivity) :
    Region.labelBilevel r c = .ok (Region.labelMask m c) := by
  rw [Region.labelBilevel, Region.require_eq_ok h, hm]
  rfl

/-- Every bilevel page can be labelled, and its labels are those of its black pixels. -/
theorem exists_labelBilevel {r : Raster} (h : r.format = .bit1) (c : Connectivity) :
    ∃ m : Mask, Region.labelBilevel r c = .ok (Region.labelMask m c) ∧ m.Selects = r.IsBlack := by
  obtain ⟨m, hm, _, hselects⟩ := exists_blackMask h
  exact ⟨m, labelBilevel_eq_ok h hm c, hselects⟩

/-- Smoothing keeps the topology of the ink. Every bilevel page can be smoothed. Pixels that are black before and
after lie in one component of the result exactly if they did in the page, and every component of either has such a
pixel. If the page fits, the scans in words label both without fault; the labels of both stand against each other
one to one, so there are as many after smoothing as before. -/
theorem smoothEdges_keeps_components {r : Raster} (h : r.format = .bit1) : Returns (smoothEdges r) fun out =>
    out.format = .bit1 ∧ out.size = r.size ∧ Connectivity.eightWay.SameComponents r.IsBlack out.IsBlack ∧
      (r.size.FitsInt32 → ∃ before after, Region.labelBilevel r .eightWay = .ok before ∧
        Region.labelBilevel out .eightWay = .ok after ∧
        Region.labelBilevelInWords? r .eightWay = some (.ok before) ∧
        Region.labelBilevelInWords? out .eightWay = some (.ok after) ∧ before.OneToOne after ∧
        after.count = before.count) := by
  obtain ⟨out, hsmooth, hformat, hpixels⟩ :
      Returns (smoothEdges r) fun out => out.format = .bit1 ∧ out.pixels = smoothGrid r.pixels := by
    simp only [smoothEdges, require_eq_ok h]
    generalize smoothGrid r.pixels = smooth
    exact ⟨_, rfl, h, rfl⟩
  have hsize : out.size = r.size := (congrArg Grid.size hpixels).trans (exists_core_smoothGrid r.pixels).1
  have hsame := sameComponents_smoothGrid hpixels
  refine ⟨out, hsmooth, hformat, hsize, hsame, fun hs => ?_⟩
  obtain ⟨m, hlabels, hselects⟩ := exists_labelBilevel h .eightWay
  obtain ⟨m', hlabels', hselects'⟩ := exists_labelBilevel hformat .eightWay
  have honeToOne := Region.oneToOne_labelMask (hselects ▸ hselects' ▸ hsame)
  refine ⟨_, _, hlabels, hlabels', ?_, ?_, honeToOne, honeToOne.count_eq.symm⟩
  · rw [Region.labelBilevelInWords?_eq_some hs, hlabels]
  · rw [Region.labelBilevelInWords?_eq_some (hsize ▸ hs), hlabels']

/-- A bump below one bar is erased and a notch in the edge of another is filled; the page has two components before
and after. -/
theorem smoothEdges_two_bars :
    let r : Raster := ⟨.bit1, .standard, ⟨⟨5, 5, by decide, by decide⟩,
      #[1, 1, 1, 0, 0, 0, 1, 0, 0, 0, 0, 0, 0, 0, 0, 1, 1, 0, 1, 1, 1, 1, 1, 1, 1], rfl⟩⟩
    r.size.FitsInt32 ∧ ∃ out before after, smoothEdges r = .ok out ∧
      out.words = #[1, 1, 1, 0, 0, 0, 0, 0, 0, 0, 0, 0, 0, 0, 0, 1, 1, 1, 1, 1, 1, 1, 1, 1, 1] ∧
      Connectivity.eightWay.SameComponents r.IsBlack out.IsBlack ∧ Region.labelBilevel r .eightWay = .ok before ∧
      Region.labelBilevel out .eightWay = .ok after ∧
      Region.labelBilevelInWords? out .eightWay = some (.ok after) ∧
      before.OneToOne after ∧ before.count = 2 ∧ after.count = 2 := by
  intro r
  have hfits : r.size.FitsInt32 := by decide
  obtain ⟨out, hout, _, _, hsame, hlabels⟩ := smoothEdges_keeps_components (r := r) rfl
  obtain ⟨before, after, hbefore, hafter, _, hwords, honeToOne, hcount⟩ := hlabels hfits
  have hsmooth : out.words = #[1, 1, 1, 0, 0, 0, 0, 0, 0, 0, 0, 0, 0, 0, 0, 1, 1, 1, 1, 1, 1, 1, 1, 1, 1] := by
    rw [← Except.ok.inj hout]
    decide +kernel
  have htwo : before.count = 2 := by
    rw [← Except.ok.inj hbefore]
    decide +kernel
  exact ⟨hfits, out, before, after, hout, hsmooth, hsame, hbefore, hafter, hwords, honeToOne, htwo,
    hcount.trans htwo⟩

end Morphology

end ScannedPage
