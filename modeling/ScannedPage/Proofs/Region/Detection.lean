import ScannedPage.Proofs.Region.Contraction
import ScannedPage.Proofs.Region.InWords
import ScannedPage.Proofs.Region.Picture
import ScannedPage.Proofs.Region.Specks

/-!
# Detection finds one rectangle for each component

Every component of a mask has a first pixel in the order of a scan, and the components in the order of their labels
are those of the first pixels in the order of the scan (`exists_firsts`). Detection gives one rectangle for each,
which lies in the smallest rectangle around the component and is either the same or its contraction
(`detect_contracts_components`). The rectangles without contraction together hold every pixel of the mask.
-/

namespace ScannedPage

/-- Two rectangles have a common part with a position exactly if both hold the position. -/
theorem Rect.exists_intersect_iff {a b : Rect} {x y : Int} :
    (∃ c, a.intersect b = some c ∧ c.contains x y = true) ↔ a.contains x y = true ∧ b.contains x y = true := by
  simp only [intersect, Option.ite_none_right_eq_some, Option.some.injEq]
  constructor
  · rintro ⟨c, ⟨_, rfl⟩, hc⟩
    simp only [contains_iff, right, bottom] at hc ⊢
    omega
  · intro h
    refine ⟨_, ⟨?_, rfl⟩, ?_⟩ <;> simp only [contains_iff, right, bottom] at h ⊢ <;> omega

/-- The common part of two rectangles holds what both of them hold. -/
theorem Rect.contains_iff_of_intersect {a b c : Rect} (h : a.intersect b = some c) {x y : Int} :
    c.contains x y = true ↔ a.contains x y = true ∧ b.contains x y = true := by
  rw [← exists_intersect_iff, h]
  simp

namespace Mask

/-- A position lies inside a mask when the rectangle of the whole mask contains it. -/
theorem contains_whole_iff {m : Mask} {x y : Nat} :
    (⟨0, 0, m.size.width, m.size.height⟩ : Rect).contains x y = true ↔ m.size.Contains x y := by
  simp only [Rect.contains_iff, Size.Contains]
  omega

/-- A filled rectangle reads as the value on its part inside, and as before elsewhere. -/
theorem get_fillRect (m : Mask) (r : Rect) (value : Bool) (x y : Nat) : (m.fillRect r value).get x y =
    if m.size.Contains x y ∧ r.contains x y = true then value else m.get x y := by
  rw [fillRect]
  cases hcommon : r.intersect ⟨0, 0, m.size.width, m.size.height⟩ with
  | none =>
    rw [if_neg]
    rintro ⟨hin, hr⟩
    obtain ⟨c, hc, _⟩ := Rect.exists_intersect_iff.mpr ⟨hr, contains_whole_iff.mpr hin⟩
    exact absurd (hcommon.symm.trans hc) (Option.some_ne_none c).symm
  | some c =>
    have hc : c.contains x y = true ↔ m.size.Contains x y ∧ r.contains x y = true := by
      rw [Rect.contains_iff_of_intersect hcommon, contains_whole_iff, and_comm]
    dsimp only
    rw [get_ofFn]
    by_cases hin : m.size.Contains x y
    · rw [if_pos hin]
      exact if_congr hc rfl rfl
    · rw [if_neg hin, if_neg fun h => hin h.1]
      exact (Grid.getD_of_not_contains hin false).symm

/-- Rectangles filled one after the other select what they hold inside, and what was selected. -/
theorem selects_foldl_fillRect (m : Mask) (rects : List Rect) (p : Nat × Nat) :
    (rects.foldl (fun m r => m.fillRect r true) m).Selects p ↔
      m.Selects p ∨ m.size.Contains p.1 p.2 ∧ ∃ r ∈ rects, r.contains p.1 p.2 = true := by
  induction rects generalizing m with
  | nil => simp
  | cons r rects ih =>
    rw [List.foldl_cons, ih, size_fillRect, Selects, Selects, get_fillRect]
    by_cases hfill : m.size.Contains p.1 p.2 ∧ r.contains p.1 p.2 = true
    · simp [hfill]
    · rw [if_neg hfill]
      grind

end Mask

namespace Region

variable {m : Mask} {c : Connectivity} {p q : Nat × Nat}

/-- Every component has a first position. -/
theorem exists_isFirst (hp : m.Selects p) : ∃ q, IsFirst m c q ∧ c.Joins m.Selects p q := by
  obtain ⟨q, hq, hleast⟩ := exists_minimalFor_of_wellFoundedLT (c.Joins m.Selects p)
    (fun q => m.size.index q.1 q.2) ⟨p, .refl⟩
  refine ⟨q, ⟨hq.mem hp, fun q' hq' => ?_⟩, hq⟩
  exact Nat.le_of_not_lt fun hlt => absurd (hleast (hq.trans hq') hlt.le) (Nat.not_le_of_lt hlt)

/-- A component has one first position only. -/
theorem IsFirst.eq_of_joins (hp : IsFirst m c p) (hq : IsFirst m c q) (h : c.Joins m.Selects p q) : p = q := by
  have hindex := Nat.le_antisymm (hp.2 q h) (hq.2 p h.symm)
  obtain ⟨hx, hy⟩ := Size.index_inj hp.1.contains.1 hq.1.contains.1 hindex
  exact Prod.ext hx hy

/-- The components in the list are those of the first positions in the order of a scan. -/
theorem exists_firsts (m : Mask) (c : Connectivity) : ∃ firsts : List (Nat × Nat),
    firsts.Pairwise (fun p q => m.size.index p.1 p.2 < m.size.index q.1 q.2) ∧ (∀ p, p ∈ firsts ↔ IsFirst m c p) ∧
      List.Forall₂ (fun p k => k.bounds.Bounds (c.Joins m.Selects p)) firsts
        (labelMask m c).components.toList := by
  have hlabelled (i : Fin (labelMask m c).count) :
      ∃ p, IsFirst m c p ∧ (labelMask m c).labelAt p.1 p.2 = i + 1 := by
    obtain ⟨q, hq, hlabel⟩ := (labelAt_labelMask_used_iff m c (i + 1)).mpr ⟨Nat.succ_pos _, i.isLt⟩
    obtain ⟨p, hp, hjoins⟩ := exists_isFirst hq
    exact ⟨p, hp, ((labelAt_labelMask_eq_iff m c hp.1 hq).mpr hjoins.symm).trans hlabel⟩
  choose first hfirst hlabel using hlabelled
  refine ⟨List.ofFn first, ?_, fun p => ?_, ?_⟩
  · rw [List.pairwise_ofFn]
    intro i j hij
    rw [← labelAt_labelMask_lt_iff m c (hfirst i) (hfirst j), hlabel, hlabel]
    exact Nat.succ_lt_succ hij
  · rw [List.mem_ofFn]
    constructor
    · rintro ⟨i, rfl⟩
      exact hfirst i
    · intro hp
      obtain ⟨hpos, hle⟩ := Finset.mem_Icc.mp (labelAt_mem_Icc (c := c) hp.1)
      refine ⟨⟨(labelMask m c).labelAt p.1 p.2 - 1, by omega⟩, (hfirst _).eq_of_joins hp ?_⟩
      rw [← labelAt_labelMask_eq_iff m c (hfirst _).1 hp.1, hlabel]
      exact Nat.sub_add_cancel hpos
  · rw [List.forall₂_iff_get]
    refine ⟨List.length_ofFn, fun i hi hk => ?_⟩
    rw [List.get_ofFn]
    refine Component.Describes.bounds (hfirst _).1 ?_
    rw [hlabel]
    exact describes_labelMask m c (Array.getElem?_eq_getElem (by simpa using hk))

/-- The smallest rectangle around positions of an image is a box in the image. -/
theorem ofRect_bounds {b : Rect} {S : Nat × Nat → Prop} {s : Size} (hb : b.Bounds S) (hp : S p)
    (hS : ∀ q, S q → s.Contains q.1 q.2) : (Box.ofRect b).Inside s ∧ (Box.ofRect b).toRect = b := by
  have hwithin : b.Within ⟨0, 0, s.width, s.height⟩ := (hb _).mpr fun q hq => by
    have hin := hS q hq
    simp only [Rect.contains_iff, Size.Contains] at hin ⊢
    omega
  have hcontains := Rect.contains_iff.mp (hb.contains hp)
  obtain ⟨x, y, w, h⟩ := b
  simp only [Rect.Within, Rect.right, Rect.bottom] at hwithin hcontains
  refine ⟨⟨?_, ?_, ?_, ?_⟩, ?_⟩ <;> simp only [Box.ofRect, Box.toRect, Rect.ofInclusive, Rect.right, Rect.bottom,
    Rect.mk.injEq] <;> omega

/-- The rectangle that detection gives for the component of a position: one with pixels within the smallest
rectangle around the component, the same at full sensitivity and its contraction below. -/
def IsPictureOf (m : Mask) (sensitivity : Nat) (p : Nat × Nat) (r : Rect) : Prop :=
  ∃ bounds : Rect, bounds.Bounds (Connectivity.eightWay.Joins m.Selects p) ∧
    (0 < r.w ∧ 0 < r.h) ∧ r.Within bounds ∧
    (sensitivity = fullSensitivity → r = bounds) ∧
    (sensitivity < fullSensitivity → IsContraction m (unsetLimit sensitivity) bounds r)

/-- The smallest rectangle around a component is its picture at full sensitivity. -/
theorem isPictureOf_bounds {bounds : Rect} (hb : bounds.Bounds (Connectivity.eightWay.Joins m.Selects p)) :
    IsPictureOf m fullSensitivity p bounds := by
  have hcontains := Rect.contains_iff.mp (hb.contains .refl)
  refine ⟨bounds, hb, ⟨by omega, by omega⟩, bounds.within_refl, fun _ => rfl, fun hlt => ?_⟩
  exact absurd hlt (Nat.lt_irrefl _)

/-- The contraction of the smallest rectangle around a component is its picture below full sensitivity. -/
theorem isPictureOf_contract {sensitivity : Nat} (hlt : sensitivity < fullSensitivity) (hp : m.Selects p)
    {bounds : Rect} (hb : bounds.Bounds (Connectivity.eightWay.Joins m.Selects p)) :
    IsPictureOf m sensitivity p ((Box.ofRect bounds).contract m sensitivity).toRect := by
  have hcontains := Rect.contains_iff.mp (hb.contains .refl)
  obtain ⟨hinside, hbox⟩ := ofRect_bounds hb .refl fun q hq => (hq.mem hp).contains
  have hcontraction := Box.isContraction_contract hinside sensitivity
  rw [hbox] at hcontraction
  obtain ⟨hpos, hwithin⟩ := hcontraction.within ⟨by omega, by omega⟩
  exact ⟨bounds, hb, hpos, hwithin, fun heq => absurd heq (Nat.ne_of_lt hlt), fun _ => hcontraction⟩

/-- Rectangles around all components together hold every pixel of the mask. -/
theorem rectsToMask_selects {firsts : List (Nat × Nat)} {rects : List Rect}
    (hmem : ∀ p, p ∈ firsts ↔ IsFirst m c p)
    (hrects : List.Forall₂ (fun p r => r.Bounds (c.Joins m.Selects p)) firsts rects) :
    Returns (rectsToMask rects m.size.width m.size.height) fun filled =>
      filled.size = m.size ∧ ∀ p, m.Selects p → filled.Selects p := by
  obtain ⟨filled, hfilled, hsize⟩ := rectsToMask_returns rects m.size
  refine ⟨filled, hfilled, hsize, fun p hp => ?_⟩
  rw [rectsToMask, Size.ofSides_sides] at hfilled
  rw [← Except.ok.inj hfilled, Mask.selects_foldl_fillRect]
  obtain ⟨first, hfirst, hjoins⟩ := exists_isFirst (c := c) hp
  obtain ⟨i, hi, rfl⟩ := List.getElem_of_mem ((hmem first).mpr hfirst)
  have hi' : i < rects.length := hrects.length_eq ▸ hi
  exact Or.inr ⟨hp.contains, rects[i], List.getElem_mem hi', (hrects.get hi hi').contains hjoins.symm⟩

/-- Detection gives one rectangle for each connected component of a mask that fits, in the order of the first
pixels in a scan; the scans in words label the mask without fault. Each rectangle has pixels and lies within the
smallest rectangle around its component. At full sensitivity it is this rectangle, so the mask of all of them holds
every pixel of the mask. Below, its edges came to rest in the order top, bottom, left, right: each at the first
line inward whose share of unset pixels within the rectangle at that time is at most the limit, or where it was
when no line up to the opposite edge is such. -/
theorem detect_contracts_components {m : Mask} (hs : m.size.FitsInt32) {sensitivity : Nat}
    (h : sensitivity ≤ fullSensitivity) :
    labelInWords? m .eightWay = some (labelMask m .eightWay) ∧ ∃ firsts rects, detect m sensitivity = .ok rects ∧
      firsts.Pairwise (fun p q => m.size.index p.1 p.2 < m.size.index q.1 q.2) ∧
      (∀ p, p ∈ firsts ↔ IsFirst m .eightWay p) ∧ List.Forall₂ (IsPictureOf m sensitivity) firsts rects ∧
      (sensitivity = fullSensitivity → Returns (rectsToMask rects m.size.width m.size.height) fun filled =>
        filled.size = m.size ∧ ∀ p, m.Selects p → filled.Selects p) := by
  refine ⟨labelInWords?_eq_some hs .eightWay, ?_⟩
  obtain ⟨firsts, hsorted, hmem, hbounds⟩ := exists_firsts m .eightWay
  have hrects : List.Forall₂ (fun p (r : Rect) => r.Bounds (Connectivity.eightWay.Joins m.Selects p)) firsts
      ((labelMask m .eightWay).components.toList.map (·.bounds)) := List.forall₂_map_right_iff.mpr hbounds
  have hselects := (List.forall₂_and_left _ _).mpr ⟨fun p hp => ((hmem p).mp hp).1, hrects⟩
  rcases Nat.lt_or_eq_of_le h with hlt | rfl
  · have hnot : ¬ fullSensitivity < sensitivity := Nat.not_lt_of_le h
    have hdetect : detect m sensitivity = .ok (((labelMask m .eightWay).components.toList.map (·.bounds)).map
        fun r => ((Box.ofRect r).contract m sensitivity).toRect) := by
      simp only [detect, hnot, Nat.ne_of_lt hlt, if_false]
      rfl
    refine ⟨firsts, _, hdetect, hsorted, hmem, ?_, fun heq => absurd heq (Nat.ne_of_lt hlt)⟩
    exact List.forall₂_map_right_iff.mpr (hselects.imp fun p r hpr => isPictureOf_contract hlt hpr.1 hpr.2)
  · exact ⟨firsts, _, rfl, hsorted, hmem, hrects.imp fun p r => isPictureOf_bounds,
      fun _ => rectsToMask_selects hmem hrects⟩

/-- At half the sensitivity a stray pixel above a block is left out, and a diagonal line, which no line of its
rectangle fits, keeps all edges. -/
theorem detect_contracts_components_beside_diagonal :
    let m : Mask := ⟨⟨12, 4, by decide, by decide⟩,
      #[false, false, true, false, false, false, false, true, false, false, false, false,
        true, true, true, true, true, true, false, false, true, false, false, false,
        true, true, true, true, true, true, false, false, false, true, false, false,
        true, true, true, true, true, true, false, false, false, false, true, false], rfl⟩
    m.size.FitsInt32 ∧ 50 ≤ fullSensitivity ∧ labelInWords? m .eightWay = some (labelMask m .eightWay) ∧
      detect m 50 = .ok [⟨0, 1, 6, 3⟩, ⟨7, 0, 4, 4⟩] ∧ ∃ firsts, (∀ p, p ∈ firsts ↔ IsFirst m .eightWay p) ∧
        List.Forall₂ (IsPictureOf m 50) firsts [⟨0, 1, 6, 3⟩, ⟨7, 0, 4, 4⟩] := by
  intro m
  have hfits : m.size.FitsInt32 := by decide
  have hle : 50 ≤ fullSensitivity := by decide
  have hfound : detect m 50 = .ok [⟨0, 1, 6, 3⟩, ⟨7, 0, 4, 4⟩] := by decide +kernel
  obtain ⟨hlabels, firsts, rects, hdetect, _, hmem, hpictures, _⟩ := detect_contracts_components hfits hle
  obtain rfl := Except.ok.inj (hfound.symm.trans hdetect)
  exact ⟨hfits, hle, hlabels, hfound, firsts, hmem, hpictures⟩

end Region

end ScannedPage
