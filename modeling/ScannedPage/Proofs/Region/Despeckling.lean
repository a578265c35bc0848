import ScannedPage.Proofs.Morphology.Topology
import ScannedPage.Proofs.Region.Specks

/-!
# Despeckling keeps the broad components

Despeckling a bilevel page leaves its broad part, for the threshold of the policy at the resolution in question
(`despeckle_broadPart`). A policy that removes nothing has a threshold of zero in this respect, for which every
component is broad. So the report is true to the page before and after (`despeckle_removes_specks`), and two
policies one after the other do what the stronger of them does alone (`despeckle_composes`).
-/

namespace ScannedPage

namespace DespecklePolicy

/-- The shortest side that a policy keeps at a resolution, which is zero if it removes nothing. -/
def reach (p : DespecklePolicy) (r : Resolution) : Nat := (p.threshold? r).getD 0

/-- Of two policies that with the greater threshold at a resolution. -/
def stronger (p q : DespecklePolicy) (r : Resolution) : DespecklePolicy := if p.reach r ≤ q.reach r then q else p

/-- The stronger policy reaches as far as the one that reaches further. -/
theorem reach_stronger (p q : DespecklePolicy) (r : Resolution) :
    (p.stronger q r).reach r = max (p.reach r) (q.reach r) := by
  rw [stronger]
  split <;> omega

/-- A policy that is not off has a threshold. -/
theorem exists_threshold {p : DespecklePolicy} (h : p ≠ .off) (r : Resolution) : ∃ t, p.threshold? r = some t := by
  cases p with
  | off => exact absurd rfl h
  | _ => exact ⟨_, rfl⟩

end DespecklePolicy

namespace Raster

/-- Black pixels are counted by their positions. -/
theorem countBlack_eq_ok {r : Raster} (h : r.format = .bit1) :
    r.countBlack = .ok (r.size.positions.filter r.IsBlack).card := by
  rw [countBlack, requireFormat_eq_ok h, ← Array.foldl_toList, foldl_count_eq_countP, Array.countP_toList,
    countP_words, Nat.zero_add]
  rfl

open Classical in
/-- The page with its broad components only. -/
noncomputable def broadPart (r : Raster) (t : Nat) : Raster :=
  ofFn r.format r.resolution r.size fun x y =>
    if Connectivity.eightWay.Broad r.IsBlack t (x, y) then r.word x y else 0

section BroadPart

variable {r : Raster} {t t' : Nat}

open Classical in
/-- A word of the page is kept if its pixel is black and in a broad component. -/
theorem word_broadPart (x y : Nat) : (r.broadPart t).word x y =
    if Connectivity.eightWay.broadPart r.IsBlack t (x, y) then r.word x y else 0 := by
  rw [broadPart, word_ofFn]
  by_cases hblack : r.word x y = 0
  · rw [hblack, ite_self, ite_self, ite_self]
  · have hxy : r.size.Contains x y := by
      by_contra hout
      exact hblack (Grid.getD_of_not_contains hout 0)
    rw [if_pos hxy]
    exact if_congr (and_iff_right hblack).symm rfl rfl

open Classical in
/-- The black pixels of the broad part of a page are the broad part of its black pixels. -/
theorem isBlack_broadPart : (r.broadPart t).IsBlack = Connectivity.eightWay.broadPart r.IsBlack t := by
  funext p
  rw [IsBlack, word_broadPart, ne_eq, ite_eq_right_iff, Classical.not_imp]
  exact propext ⟨And.left, fun h => ⟨h, h.1⟩⟩

/-- The broad part of a broad part is that for the greater length. -/
theorem broadPart_broadPart : (r.broadPart t).broadPart t' = r.broadPart (max t t') := by
  refine ext_word rfl rfl rfl fun x y _ => ?_
  rw [word_broadPart, word_broadPart, word_broadPart, isBlack_broadPart]
  by_cases hbroad : Connectivity.eightWay.broadPart r.IsBlack (max t t') (x, y)
  · have htwice := Connectivity.broadPart_broadPart_iff.mpr hbroad
    rw [if_pos hbroad, if_pos htwice, if_pos htwice.1]
  · rw [if_neg hbroad, if_neg fun htwice => hbroad (Connectivity.broadPart_broadPart_iff.mp htwice)]

/-- Every component of a bilevel page has a smallest rectangle around it. -/
theorem exists_bounds (h : r.format = .bit1) {p : Nat × Nat} (hp : r.IsBlack p) :
    ∃ b : Rect, b.Bounds (Connectivity.eightWay.Joins r.IsBlack p) := by
  obtain ⟨m, _, _, hselects⟩ := Morphology.exists_blackMask h
  rw [← hselects] at hp ⊢
  exact Region.exists_bounds hp

/-- Every component is broad for a length of zero. -/
theorem broadPart_zero (h : r.format = .bit1) : r.broadPart 0 = r := by
  refine ext_word rfl rfl rfl fun x y _ => ?_
  rw [word_broadPart]
  by_cases hblack : r.word x y = 0
  · rw [hblack, ite_self]
  · obtain ⟨b, hb⟩ := exists_bounds h (p := (x, y)) hblack
    have hpos := hb.minDimension_pos .refl
    exact if_pos ⟨hblack, b, hb, by omega⟩

end BroadPart

end Raster

namespace Region

section Despeckle

variable {r : Raster} {policy : DespecklePolicy} {resolution : Resolution} {t : Nat}

/-- Without the labels of specks a page keeps its broad part. -/
theorem ofFn_isSpeckLabel {m : Mask} (h : r.format = .bit1) (hselects : m.Selects = r.IsBlack) :
    (Raster.ofFn .bit1 r.resolution r.size fun x y =>
      if (labelMask m .eightWay).isSpeckLabel t ((labelMask m .eightWay).labelAt x y) then 0 else r.word x y) =
      r.broadPart t := by
  refine Raster.ext_word h.symm rfl rfl fun x y hxy => ?_
  have hin : r.size.Contains x y := hxy
  rw [Raster.word_ofFn, if_pos hin, Raster.word_broadPart]
  by_cases hwhite : r.word x y = 0
  · rw [hwhite, ite_self, ite_self]
  · have hblack : r.IsBlack (x, y) := hwhite
    have hspeck := isSpeckLabel_labelAt_iff (c := .eightWay) (t := t) (hselects ▸ hblack)
    by_cases hbroad : Connectivity.eightWay.Broad r.IsBlack t (x, y)
    · rw [if_neg fun hlabel => hspeck.mp hlabel (hselects ▸ hbroad)]
      exact (if_pos ⟨hblack, hbroad⟩).symm
    · rw [if_pos (hspeck.mpr (hselects ▸ hbroad))]
      exact (if_neg fun hboth => hbroad hboth.2).symm

/-- A policy with a threshold leaves the broad part, and reports on the components and specks of the black
pixels. -/
theorem despeckle_eq_ok {m : Mask} (h : r.format = .bit1) (hm : r.toMask = .ok m)
    (hselects : m.Selects = r.IsBlack) (ht : policy.threshold? resolution = some t) :
    despeckle r policy resolution = .ok (r.broadPart t, ⟨some t, (labelMask m .eightWay).count,
      ((labelMask m .eightWay).components.filter (Component.isSpeck t)).size,
      ((labelMask m .eightWay).components.filter (Component.isSpeck t)).foldl
        (fun n k => n + k.pixelCount) 0⟩) := by
  rw [despeckle, require_eq_ok h, ht, ← ofFn_isSpeckLabel h hselects]
  simp only [Morphology.labelBilevel_eq_ok h hm]
  rfl

/-- Despeckling leaves the broad part of a bilevel page, as far as the policy reaches. -/
theorem despeckle_broadPart (h : r.format = .bit1) (policy : DespecklePolicy) (resolution : Resolution) :
    Returns (despeckle r policy resolution) fun result => result.1 = r.broadPart (policy.reach resolution) := by
  rw [DespecklePolicy.reach]
  cases ht : policy.threshold? resolution with
  | none =>
    rw [despeckle, require_eq_ok h, ht]
    exact returns_ok (Raster.broadPart_zero h).symm
  | some t =>
    obtain ⟨m, hm, _, hselects⟩ := Morphology.exists_blackMask h
    rw [despeckle_eq_ok h hm hselects ht]
    exact returns_ok rfl

end Despeckle

/-- A page without the specks of another under a threshold, and a report that is true to both. -/
structure RemovesSpecks (r : Raster) (t : Nat) (out : Raster) (report : DespeckleReport) : Prop where
  shape : out.format = r.format ∧ out.size = r.size ∧ out.resolution = r.resolution
  /-- A black pixel stays if the rectangle around its component is long enough on its shorter side. -/
  kept_iff : ∀ p, r.IsBlack p → ∃ b : Rect, b.Bounds (Connectivity.eightWay.Joins r.IsBlack p) ∧
    (out.IsBlack p ↔ (t : Int) ≤ b.minDimension)
  /-- No pixel is black that was not black before. -/
  isBlack_of_isBlack : ∀ p, out.IsBlack p → r.IsBlack p
  threshold_eq : report.threshold = some t
  components_eq : report.components = (Connectivity.eightWay.components r.IsBlack).ncard
  removed_eq : (Connectivity.eightWay.components out.IsBlack).ncard + report.removed = report.components
  removedPixels_eq : ∃ before after, r.countBlack = .ok before ∧ out.countBlack = .ok after ∧
    after + report.removedPixels = before

/-- Despeckling removes exactly the small components. Under every policy that is not off and at every resolution, a
bilevel page that fits, which the scans in words label without fault, loses the black pixels of the components
whose rectangle is shorter than the threshold on its shorter side, and nothing else. The report gives the threshold
and the number of components of the page; without those removed these are the components of the result, and the
pixels removed are the drop in the number of black pixels. -/
theorem despeckle_removes_specks {r : Raster} (hs : r.size.FitsInt32) (h : r.format = .bit1)
    {policy : DespecklePolicy} (hpolicy : policy ≠ .off) (resolution : Resolution) :
    labelBilevelInWords? r .eightWay = some (labelBilevel r .eightWay) ∧
      ∃ t, policy.threshold? resolution = some t ∧
      Returns (despeckle r policy resolution) fun result => RemovesSpecks r t result.1 result.2 := by
  obtain ⟨t, ht⟩ := DespecklePolicy.exists_threshold hpolicy resolution
  obtain ⟨m, hm, hsize, hselects⟩ := Morphology.exists_blackMask h
  refine ⟨labelBilevelInWords?_eq_some hs .eightWay, t, ht, ?_⟩
  rw [despeckle_eq_ok h hm hselects ht]
  refine returns_ok ⟨⟨rfl, rfl, rfl⟩, fun p hp => ?_, fun p hp => ?_, rfl, ?_, ?_, ?_⟩
  · obtain ⟨b, hb⟩ := Raster.exists_bounds h hp
    refine ⟨b, hb, ?_⟩
    rw [Raster.isBlack_broadPart]
    refine ⟨fun ⟨_, b', hb', hle⟩ => hb.unique hb' ▸ hle, fun hle => ⟨hp, b, hb, hle⟩⟩
  · rw [Raster.isBlack_broadPart] at hp
    exact hp.1
  · rw [← hselects, ncard_components]
  · rw [Raster.isBlack_broadPart, ← hselects, size_specks]
    exact ncard_components_broadPart
  · refine ⟨_, _, Raster.countBlack_eq_ok h, Raster.countBlack_eq_ok h, ?_⟩
    classical
    have hbefore : r.size.positions.filter r.IsBlack = m.size.positions.filter m.Selects := by
      ext q
      rw [Finset.mem_filter, Finset.mem_filter, hsize, hselects]
    have hafter : (r.broadPart t).size.positions.filter (r.broadPart t).IsBlack =
        m.size.positions.filter (Connectivity.eightWay.broadPart m.Selects t) := by
      ext q
      rw [Finset.mem_filter, Finset.mem_filter, Raster.isBlack_broadPart, hsize, hselects]
      rfl
    rw [hbefore, hafter]
    exact card_broadPart m .eightWay t

/-- A block of three by three pixels stays at 300 dots per inch, and a single pixel beside it goes. -/
theorem despeckle_removes_specks_beside_block :
    let r : Raster := ⟨.bit1, .standard, ⟨⟨5, 3, by decide, by decide⟩,
      #[1, 1, 1, 0, 1, 1, 1, 1, 0, 0, 1, 1, 1, 0, 0], rfl⟩⟩
    r.size.FitsInt32 ∧ DespecklePolicy.normal ≠ .off ∧ DespecklePolicy.normal.threshold? .standard = some 3 ∧
      labelBilevelInWords? r .eightWay = some (labelBilevel r .eightWay) ∧
        ∃ result, despeckle r .normal .standard = .ok result ∧ RemovesSpecks r 3 result.1 result.2 ∧
        result.1.words = #[1, 1, 1, 0, 0, 1, 1, 1, 0, 0, 1, 1, 1, 0, 0] ∧ result.2 = ⟨some 3, 2, 1, 1⟩ := by
  intro r
  have hfits : r.size.FitsInt32 := by decide
  have hpolicy : DespecklePolicy.normal ≠ .off := by decide
  have hthreshold : DespecklePolicy.normal.threshold? .standard = some 3 := by decide
  obtain ⟨hlabels, t, ht, result, hresult, hremoves⟩ := despeckle_removes_specks hfits rfl hpolicy .standard
  obtain rfl : t = 3 := Option.some.inj (ht.symm.trans hthreshold)
  have hwords : result.1.words = #[1, 1, 1, 0, 0, 1, 1, 1, 0, 0, 1, 1, 1, 0, 0] := by
    rw [← Except.ok.inj hresult]
    decide +kernel
  have hreport : result.2 = ⟨some 3, 2, 1, 1⟩ := by
    rw [← Except.ok.inj hresult]
    decide +kernel
  exact ⟨hfits, hpolicy, hthreshold, hlabels, result, hresult, hremoves, hwords, hreport⟩

/-- The page without its specks, with no report on them. -/
def despeckled (r : Raster) (policy : DespecklePolicy) (resolution : Resolution) : Except RegionError Raster :=
  Prod.fst <$> despeckle r policy resolution

/-- The page without its specks is its broad part as far as the policy reaches. -/
theorem despeckled_eq_ok {r : Raster} (h : r.format = .bit1) (policy : DespecklePolicy) (resolution : Resolution) :
    despeckled r policy resolution = .ok (r.broadPart (policy.reach resolution)) := by
  obtain ⟨result, hresult, hbroad⟩ := despeckle_broadPart h policy resolution
  exact map_eq_ok.mpr ⟨result, hresult, hbroad⟩

/-- Despeckling composes. A bilevel page that fits can be despeckled under any policy, and the result again under
any other; the scans in words label all these pages without fault. Two policies one after the other, in either
order, give what the one with the greater threshold gives alone, and one policy twice gives what it gives once. A
policy with a greater threshold keeps a part of the ink that the other keeps. -/
theorem despeckle_composes {r : Raster} (hs : r.size.FitsInt32) (h : r.format = .bit1) (p q : DespecklePolicy)
    (resolution : Resolution) : ∃ a b both, despeckled r p resolution = .ok a ∧ despeckled r q resolution = .ok b ∧
      (∀ page ∈ [r, a, b], labelBilevelInWords? page .eightWay = some (labelBilevel page .eightWay)) ∧
      despeckled r (p.stronger q resolution) resolution = .ok both ∧ despeckled a q resolution = .ok both ∧
      despeckled b p resolution = .ok both ∧ despeckled a p resolution = .ok a ∧
      (p.reach resolution ≤ q.reach resolution → ∀ x, b.IsBlack x → a.IsBlack x) := by
  have hboth (s t : DespecklePolicy) : despeckled (r.broadPart (s.reach resolution)) t resolution =
      .ok (r.broadPart (max (s.reach resolution) (t.reach resolution))) := by
    have hformat : (r.broadPart (s.reach resolution)).format = .bit1 := h
    rw [despeckled_eq_ok hformat, Raster.broadPart_broadPart]
  refine ⟨_, _, _, despeckled_eq_ok h p resolution, despeckled_eq_ok h q resolution, fun page hpage => ?_,
    despeckled_eq_ok h _ resolution, ?_, ?_, ?_, fun hle x hx => ?_⟩
  · have hsize : page.size = r.size := by
      simp only [List.mem_cons, List.not_mem_nil, or_false] at hpage
      rcases hpage with rfl | rfl | rfl <;> rfl
    exact labelBilevelInWords?_eq_some (hsize ▸ hs) .eightWay
  · rw [hboth, DespecklePolicy.reach_stronger]
  · rw [hboth, DespecklePolicy.reach_stronger, Nat.max_comm]
  · rw [hboth, Nat.max_self]
  · rw [Raster.isBlack_broadPart] at hx ⊢
    exact ⟨hx.1, hx.2.mono hle⟩

/-- Of a block of two by two pixels and a single pixel the cautious policy removes the pixel and the normal one
both. -/
theorem despeckle_composes_two_specks :
    let r : Raster := ⟨.bit1, .standard, ⟨⟨4, 2, by decide, by decide⟩, #[1, 1, 0, 1, 1, 1, 0, 0], rfl⟩⟩
    r.size.FitsInt32 ∧ ∃ a b, despeckled r .cautious .standard = .ok a ∧ despeckled r .normal .standard = .ok b ∧
      (∀ page ∈ [r, a, b], labelBilevelInWords? page .eightWay = some (labelBilevel page .eightWay)) ∧
      a.words = #[1, 1, 0, 0, 1, 1, 0, 0] ∧ b.words = #[0, 0, 0, 0, 0, 0, 0, 0] ∧
      DespecklePolicy.cautious.stronger .normal .standard = .normal ∧ despeckled a .normal .standard = .ok b ∧
      despeckled b .cautious .standard = .ok b ∧ despeckled a .cautious .standard = .ok a ∧
      ∀ x, b.IsBlack x → a.IsBlack x := by
  intro r
  have hfits : r.size.FitsInt32 := by decide
  obtain ⟨a, b, both, ha, hb, hlabels, hboth, hab, hba, haa, hsub⟩ :=
    despeckle_composes hfits rfl .cautious .normal .standard
  have hstronger : DespecklePolicy.cautious.stronger .normal .standard = .normal := by decide
  obtain rfl : both = b := Except.ok.inj (hboth.symm.trans (hstronger ▸ hb))
  have hcautious : a.words = #[1, 1, 0, 0, 1, 1, 0, 0] := by
    rw [← Except.ok.inj ha]
    decide +kernel
  have hnormal : both.words = #[0, 0, 0, 0, 0, 0, 0, 0] := by
    rw [← Except.ok.inj hb]
    decide +kernel
  exact ⟨hfits, a, both, ha, hb, hlabels, hcautious, hnormal, hstronger, hab, hba, haa, hsub (by decide)⟩

end Region

end ScannedPage
