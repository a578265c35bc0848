import ScannedPage.Proofs.Region.Detection
import ScannedPage.Proofs.Scanning
import ScannedPage.Proofs.Zone.Drawing

/-!
# Rectangles filled in place

A rectangle is filled by two loops over its common part with the mask. They compute in words with a sign, and write
to places of an array that come from these words (`Mask.fillInPlace?`). An edge that does not fit its word and a
place beyond the array are faults. If the edges of the rectangle fit and the sides of the mask take half the range
at most, there is no fault, and exactly the pixels of the rectangle in the mask are set
(`Mask.fillInPlace?_eq_some`). So a list of rectangles sets their union, and a scan of the mask finds the smallest
rectangle around it (`rectsToMask_selects_union`).
-/

namespace ScannedPage

namespace Rect

/-- The corner, the sides and the edges beyond fit 32 bits with a sign. -/
def FitsInt32 (r : Rect) : Prop :=
  (IsInt32 r.x ∧ IsInt32 r.y) ∧ (IsInt32 r.w ∧ IsInt32 r.h) ∧ IsInt32 r.right ∧ IsInt32 r.bottom

instance (r : Rect) : Decidable r.FitsInt32 := inferInstanceAs (Decidable (_ ∧ _))

/-- The common part of two rectangles in words. An edge or a side that does not fit is a fault. -/
def intersect? (a b : Rect) : Option (Option Rect) := do
  let x := max a.x b.x
  let y := max a.y b.y
  let right := min (← int32? a.right) (← int32? b.right)
  let bottom := min (← int32? a.bottom) (← int32? b.bottom)
  if x < right ∧ y < bottom then
    return some ⟨x, y, ← int32? (right - x), ← int32? (bottom - y)⟩
  else
    return none

/-- The common part with a rectangle that does not begin before zero is without fault. -/
theorem intersect?_eq_some {a b : Rect} (ha : a.FitsInt32) (hb : b.FitsInt32) (hx : 0 ≤ b.x) (hy : 0 ≤ b.y) :
    a.intersect? b = some (a.intersect b) := by
  obtain ⟨-, -, hright, hbottom⟩ := ha
  obtain ⟨-, -, hright', hbottom'⟩ := hb
  simp only [intersect?, intersect, int32?_eq_some hright, int32?_eq_some hright', int32?_eq_some hbottom,
    int32?_eq_some hbottom', Option.bind_eq_bind, Option.bind_some]
  split
  · next hcommon =>
    have hsides : IsInt32 (min a.right b.right - max a.x b.x) ∧ IsInt32 (min a.bottom b.bottom - max a.y b.y) := by
      simp only [IsInt32] at *
      omega
    rw [int32?_eq_some hsides.1, int32?_eq_some hsides.2]
    rfl
  · rfl

/-- The common part lies within the second rectangle, and its sides have some length. -/
theorem within_of_intersect {a b c : Rect} (h : a.intersect b = some c) :
    c.Within b ∧ c.x < c.right ∧ c.y < c.bottom := by
  simp only [intersect, Option.ite_none_right_eq_some, Option.some.injEq] at h
  obtain ⟨_, rfl⟩ := h
  simp only [Within, right, bottom] at *
  omega

/-- The pixels of a rectangle, row by row. -/
def places (r : Rect) : List (Nat × Nat) :=
  (intRange r.y r.bottom).flatMap fun y => (intRange r.x r.right).map fun x => (x.toNat, y.toNat)

/-- A rectangle that does not begin before zero has the pixels it contains. -/
theorem mem_places_iff {r : Rect} (hx : 0 ≤ r.x) (hy : 0 ≤ r.y) {x y : Nat} :
    (x, y) ∈ r.places ↔ r.contains x y = true := by
  simp only [places, List.mem_flatMap, List.mem_map, mem_intRange_iff, Prod.mk.injEq, contains_iff, right, bottom]
  constructor
  · rintro ⟨y', hy', x', hx', rfl, rfl⟩
    omega
  · intro h
    exact ⟨y, by omega, x, by omega, Int.toNat_natCast x, Int.toNat_natCast y⟩

end Rect

namespace Mask

variable {m : Mask} {r c : Rect} {value : Bool}

/-- The loops that fill a rectangle in place. -/
def fillInPlace? (m : Mask) (r : Rect) (value : Bool) : Option Mask := do
  let width := m.size.width
  match ← r.intersect? ⟨0, 0, toInt32 width, toInt32 m.size.height⟩ with
  | none => return m
  | some c =>
    let right ← int32? c.right
    let bottom ← int32? c.bottom
    (intRange c.y bottom).foldlM (fun m y => do
      let row := toAddress y * width
      (intRange c.x right).foldlM (fun m x => m.writeAt? (row + toAddress x) value) m) m

/-- Positions drawn after others are drawn into what those left. -/
theorem draw_append (m : Mask) (places places' : List (Nat × Nat)) (value : Bool) :
    m.draw (places ++ places') value = (m.draw places value).draw places' value := List.foldl_append

/-- Rounds that draw some positions each draw all of them. -/
theorem foldlM_draw {α : Type} {s : Size} (values : List α) (round : Mask → α → Option Mask)
    (places : α → List (Nat × Nat)) (value : Bool)
    (hround : ∀ a ∈ values, ∀ m : Mask, m.size = s → round m a = some (m.draw (places a) value))
    (hm : m.size = s) :
    values.foldlM round m = some (m.draw (values.flatMap places) value) := by
  induction values generalizing m with
  | nil => rfl
  | cons a values ih =>
    rw [List.foldlM_cons, hround a List.mem_cons_self m hm, List.flatMap_cons, draw_append]
    exact ih (fun b hb => hround b (List.mem_cons_of_mem a hb)) ((m.size_draw (places a) value).trans hm)

/-- The loops over a rectangle inside draw its pixels. -/
theorem fillLoops_eq_some {s : Size} (hm : m.size = s) (hc : c.Within ⟨0, 0, s.width, s.height⟩)
    (hwidth : s.width < 2 ^ 31) (hheight : s.height < 2 ^ 31) :
    (intRange c.y c.bottom).foldlM (fun m y =>
      (intRange c.x c.right).foldlM (fun m x => m.writeAt? (toAddress y * s.width + toAddress x) value) m) m =
    some (m.draw c.places value) := by
  refine foldlM_draw _ _ _ value (fun y hy m hm => ?_) hm
  have hrow := foldlM_draw (intRange c.x c.right)
    (fun m x => m.writeAt? (toAddress y * s.width + toAddress x) value) (fun x => [(x.toNat, y.toNat)]) value
    (fun x hx m hm => ?_) hm
  · rw [hrow, ← List.map_eq_flatMap]
  · simp only [mem_intRange_iff, Rect.Within, Rect.right, Rect.bottom] at hx hy hc
    obtain ⟨x, rfl⟩ := Int.eq_ofNat_of_zero_le (hc.1.trans hx.1)
    obtain ⟨y, rfl⟩ := Int.eq_ofNat_of_zero_le (hc.2.2.1.trans hy.1)
    subst hm
    rw [toAddress_natCast (by omega), toAddress_natCast (by omega)]
    exact Grid.writeAt?_eq_some ⟨by omega, by omega⟩ value

/-- Drawing the pixels of its common part with the mask is filling a rectangle. -/
theorem draw_places (h : r.intersect ⟨0, 0, m.size.width, m.size.height⟩ = some c) :
    m.draw c.places value = m.fillRect r value := by
  obtain ⟨hx, _, hy, _⟩ := (Rect.within_of_intersect h).1
  refine Grid.ext_getD (by rw [size_draw, size_fillRect]) false fun x y _ => ?_
  refine (get_draw ..).trans (Eq.trans (if_congr ?_ rfl rfl) (get_fillRect ..).symm)
  rw [Rect.mem_places_iff hx hy, Rect.contains_iff_of_intersect h, contains_whole_iff]
  tauto

/-- A rectangle whose edges fit is filled in place without fault. -/
theorem fillInPlace?_eq_some (hwidth : m.size.width < 2 ^ 31) (hheight : m.size.height < 2 ^ 31) (hr : r.FitsInt32)
    (value : Bool) : m.fillInPlace? r value = some (m.fillRect r value) := by
  have hwhole : (⟨0, 0, m.size.width, m.size.height⟩ : Rect).FitsInt32 := by
    simp only [Rect.FitsInt32, IsInt32, Rect.right, Rect.bottom]
    omega
  rw [fillInPlace?, toInt32_eq hwidth, toInt32_eq hheight, Rect.intersect?_eq_some hr hwhole le_rfl le_rfl]
  cases hcommon : r.intersect ⟨0, 0, m.size.width, m.size.height⟩ with
  | none => simp [fillRect, hcommon]
  | some c =>
    obtain ⟨hwithin, hcolumns, hrows⟩ := Rect.within_of_intersect hcommon
    have hfits : IsInt32 c.right ∧ IsInt32 c.bottom := by
      simp only [Rect.Within, IsInt32, Rect.right, Rect.bottom] at *
      omega
    simp only [Option.bind_eq_bind, Option.bind_some, int32?_eq_some hfits.1, int32?_eq_some hfits.2]
    rw [fillLoops_eq_some rfl hwithin hwidth hheight, draw_places hcommon]

/-- A rectangle that may be missing bounds a set: there is none for the empty set only, and else the smallest. -/
def BoundsOf (S : Nat × Nat → Prop) : Option Rect → Prop
  | none => ∀ q, ¬ S q
  | some b => (∃ q, S q) ∧ b.Bounds S

/-- A rectangle bounds a set by its positions alone. -/
theorem boundsOf_congr {S T : Nat × Nat → Prop} (h : ∀ q, S q ↔ T q) (bounds : Option Rect) :
    BoundsOf S bounds ↔ BoundsOf T bounds := by
  rw [show S = T from funext fun q => propext (h q)]

/-- A rectangle grown by a pixel bounds the set with that pixel. -/
theorem boundsOf_growBounds {S : Nat × Nat → Prop} {bounds : Option Rect} (h : BoundsOf S bounds) (x y : Nat) :
    BoundsOf (fun q => S q ∨ q = (x, y)) (growBounds bounds x y) := by
  cases bounds with
  | none =>
    refine ⟨⟨(x, y), Or.inr rfl⟩, fun r => ?_⟩
    simp only [Rect.pixel_within_iff, fun q => or_iff_right (b := q = (x, y)) (h q), forall_eq]
  | some b =>
    refine ⟨⟨(x, y), Or.inr rfl⟩, fun r => ?_⟩
    rw [Rect.union_within_iff, Rect.pixel_within_iff, h.2 r]
    simp only [or_imp, forall_and, forall_eq]

/-- The scan of a mask finds the smallest rectangle around the positions it selects. -/
theorem boundsOf_bounds (m : Mask) : BoundsOf m.Selects m.bounds := by
  have hscan : BoundsOf (m.SelectsBefore m.size.area) m.bounds := by
    unfold bounds
    have hnone : BoundsOf (m.SelectsBefore 0) none := fun q hq => Nat.not_lt_zero _ hq.2
    apply scan_induction m.size.area _ _ (fun n b => BoundsOf (m.SelectsBefore n) b) hnone
    intro i hi b h
    have hxy := Size.contains_mod_div hi
    rw [← Size.index_mod_div m.size i] at h ⊢
    rw [Size.index_mod hxy.1, Size.index_div hxy.1]
    dsimp only
    split
    · next hm => exact (boundsOf_congr (selectsBefore_succ_iff hm) _).mpr (boundsOf_growBounds h _ _)
    · next hm => exact (boundsOf_congr (selectsBefore_succ_iff_of_not hxy hm) _).mpr h
  exact (boundsOf_congr (fun q => and_iff_left_of_imp fun hq => Size.index_lt hq.contains) _).mp hscan

/-- A mask that selects nothing has no smallest rectangle. -/
theorem bounds_eq_none (h : ∀ p, ¬ m.Selects p) : m.bounds = none := by
  have hbounds := m.boundsOf_bounds
  cases hb : m.bounds with
  | none => rfl
  | some b =>
    rw [hb] at hbounds
    obtain ⟨⟨p, hp⟩, _⟩ := hbounds
    exact absurd hp (h p)

/-- A mask that selects any position has a smallest rectangle. -/
theorem exists_bounds {p : Nat × Nat} (hp : m.Selects p) : ∃ b, m.bounds = some b ∧ b.Bounds m.Selects := by
  have hbounds := m.boundsOf_bounds
  cases hb : m.bounds with
  | none =>
    rw [hb] at hbounds
    exact absurd hp (hbounds p)
  | some b =>
    rw [hb] at hbounds
    exact ⟨b, rfl, hbounds.2⟩

end Mask

namespace Region

/-- Rectangles filled in place, one after the other, into an empty mask. -/
def rectsInPlace? (rects : List Rect) (s : Size) : Option Mask :=
  rects.foldlM (fun m r => m.fillInPlace? r true) (Mask.empty s)

variable {rects : List Rect} {s : Size}

/-- Rectangles whose edges fit are filled in place without fault. -/
theorem rectsInPlace?_eq_some (hwidth : s.width < 2 ^ 31) (hheight : s.height < 2 ^ 31)
    (hfits : ∀ r ∈ rects, r.FitsInt32) :
    rectsInPlace? rects s = some (rects.foldl (fun m r => m.fillRect r true) (Mask.empty s)) := by
  have hfold (m : Mask) (hm : m.size = s) :
      rects.foldlM (fun m r => m.fillInPlace? r true) m = some (rects.foldl (fun m r => m.fillRect r true) m) := by
    induction rects generalizing m with
    | nil => rfl
    | cons r rects ih =>
      have hr := Mask.fillInPlace?_eq_some (hm ▸ hwidth) (hm ▸ hheight) (hfits r List.mem_cons_self) true
      rw [List.foldlM_cons, hr]
      exact ih (fun r' hr' => hfits r' (List.mem_cons_of_mem r hr')) _ ((m.size_fillRect r true).trans hm)
  exact hfold _ rfl

/-- Rectangles whose edges fit set exactly the pixels of a mask that one of them contains, and filling them in
place never writes beyond the mask. The rectangle around the pixels is the smallest that contains them all, and is
missing only if there are none. -/
theorem rectsToMask_selects_union (hwidth : s.width < 2 ^ 31) (hheight : s.height < 2 ^ 31)
    (hfits : ∀ r ∈ rects, r.FitsInt32) :
    ∃ m, rectsToMask rects s.width s.height = .ok m ∧ rectsInPlace? rects s = some m ∧ m.size = s ∧
      (∀ p, m.Selects p ↔ s.Contains p.1 p.2 ∧ ∃ r ∈ rects, r.contains p.1 p.2 = true) ∧
      ((∀ p, ¬ m.Selects p) → m.bounds = none) ∧
      ((∃ p, m.Selects p) → ∃ b, m.bounds = some b ∧ b.Bounds m.Selects) := by
  obtain ⟨m, hm, hsize⟩ := rectsToMask_returns rects s
  have hfold : rects.foldl (fun m r => m.fillRect r true) (Mask.empty s) = m := by
    rw [rectsToMask, Size.ofSides_sides] at hm
    exact Except.ok.inj hm
  refine ⟨m, hm, ?_, hsize, fun p => ?_, Mask.bounds_eq_none, fun h => h.elim fun _ hp => Mask.exists_bounds hp⟩
  · rw [rectsInPlace?_eq_some hwidth hheight hfits, hfold]
  · have hempty : ¬ (Mask.empty s).Selects p := by simp [Mask.Selects, Mask.get_empty]
    rw [← hfold, Mask.selects_foldl_fillRect]
    exact or_iff_right hempty

/-- Of six rectangles one begins left of the mask and one ends far below; a turned one, an empty one and one
outside set nothing, nor does one that ends before the mask begins. -/
theorem rectsToMask_selects_union_clipped :
    let s : Size := ⟨7, 6, by decide, by decide⟩
    let rects : List Rect := [⟨-2, 1, 4, 2⟩, ⟨3, 3, 2, 2147483644⟩, ⟨5, 1, -3, 2⟩, ⟨2, 2, 0, 5⟩, ⟨8, 7, 2, 2⟩,
      ⟨-2147483648, 0, 2147483647, 6⟩]
    s.width < 2 ^ 31 ∧ s.height < 2 ^ 31 ∧ (∀ r ∈ rects, r.FitsInt32) ∧
      ∃ m, rectsToMask rects s.width s.height = .ok m ∧ rectsInPlace? rects s = some m ∧
        (∀ p, m.Selects p ↔ s.Contains p.1 p.2 ∧ ∃ r ∈ rects, r.contains p.1 p.2 = true) ∧ m.Selects (4, 5) ∧
        m.bounds = some ⟨0, 1, 5, 5⟩ ∧ (⟨0, 1, 5, 5⟩ : Rect).Bounds m.Selects := by
  intro s rects
  have hwidth : s.width < 2 ^ 31 := by decide
  have hheight : s.height < 2 ^ 31 := by decide
  have hfits : ∀ r ∈ rects, r.FitsInt32 := by decide
  have hfound : (rectsInPlace? rects s).map Mask.bounds = some (some ⟨0, 1, 5, 5⟩) := by decide +kernel
  obtain ⟨m, hm, hplace, _, hselects, _, hbounds⟩ := rectsToMask_selects_union hwidth hheight hfits
  have hlast : m.Selects (4, 5) := (hselects _).mpr (by decide)
  obtain ⟨b, hb, hsmallest⟩ := hbounds ⟨_, hlast⟩
  rw [hplace, Option.map_some, hb, Option.some.injEq, Option.some.injEq] at hfound
  subst hfound
  exact ⟨hwidth, hheight, hfits, m, hm, hplace, hselects, hlast, hb, hsmallest⟩

end Region

end ScannedPage
