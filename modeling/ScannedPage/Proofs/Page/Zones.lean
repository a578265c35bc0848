import Mathlib.Data.List.Induction
import ScannedPage.Page.Layers
import ScannedPage.Page.Compose
import ScannedPage.Proofs.Raster

/-!
# What a list of zones does to one pixel

A zone that does not cover a pixel leaves every layer alone there. So the layers at a pixel follow from the
zones that cover it, in their order: the last one decides the layer of detected pictures, the rectangles and the
foreground keep the pixels that no zone takes out of every layer, and a zone that does keeps all layers clear
until a later zone adds the pixel again.
-/

namespace ScannedPage

/-- The zone covers a pixel of an image of a size. -/
def Zone.Covers (z : Zone) (size : Size) (x y : Nat) : Prop := (z.coverage size).get x y = true

/-- Whether a zone covers a pixel can be computed. -/
instance (z : Zone) (size : Size) (x y : Nat) : Decidable (z.Covers size x y) :=
  inferInstanceAs (Decidable (_ = true))

/-- Zones without a fault are all usable, and none is set aside. -/
theorem Zone.sift_of_usable {zones : List Zone} (h : ∀ z ∈ zones, z.fault? = none) :
    Zone.sift zones = (zones, []) := by
  apply Prod.ext
  · exact List.filter_eq_self.mpr fun z hz => Option.isNone_iff_eq_none.mpr (h z hz)
  · refine List.filterMap_eq_nil_iff.mpr ?_
    rintro ⟨z, place⟩ hz
    dsimp only
    rw [h z (List.fst_mem_of_mem_zipIdx hz), Option.map_none]

/-- A zone with a fault at the end of a list is set aside at its place, after the others. -/
theorem Zone.sift_concat_of_fault (zones : List Zone) {z : Zone} {reason : ZoneError}
    (h : z.fault? = some reason) :
    Zone.sift (zones ++ [z]) = ((Zone.sift zones).1, (Zone.sift zones).2 ++ [(zones.length, reason)]) := by
  simp [Zone.sift, List.zipIdx_append, h]

/-- The coverage of a zone has the size it was asked for. -/
theorem Zone.size_coverage (z : Zone) (size : Size) : (z.coverage size).size = size := by
  rw [coverage]
  split <;> rfl

/-- Only pixels inside are covered. -/
theorem Zone.Covers.contains {z : Zone} {size : Size} {x y : Nat} (h : z.Covers size x y) : size.Contains x y :=
  z.size_coverage size ▸ Mask.Selects.contains (p := (x, y)) h

/-- The tag of the last zone for pictures that covers a pixel. -/
def Zone.lastPictureTag? (zones : List Zone) (size : Size) (x y : Nat) : Option ZoneTag :=
  ((zones.filter fun z => decide (z.tag ≠ .fill ∧ z.Covers size x y)).getLast?).map Zone.tag

/-- The last zone of a list decides where it covers, if it is one for pictures. -/
theorem Zone.lastPictureTag?_concat (zones : List Zone) {z : Zone} {size : Size} {x y : Nat} (htag : z.tag ≠ .fill)
    (hcover : z.Covers size x y) : lastPictureTag? (zones ++ [z]) size x y = some z.tag := by
  simp [lastPictureTag?, List.filter_append, htag, hcover]

section Paint

variable (z : Zone) (m : Mask) (value : Bool) {x y : Nat}

/-- Painting a zone sets the pixels it covers. -/
theorem Zone.get_paint (x y : Nat) :
    (z.paint m value).get x y = if z.Covers m.size x y then value else m.get x y := by
  rw [paint, Mask.get_ofFn]
  by_cases hcover : z.Covers m.size x y
  · rw [if_pos hcover.contains, if_pos hcover]
    exact if_pos hcover
  · rw [if_neg hcover]
    split
    · exact if_neg hcover
    · next hout => exact (Grid.getD_of_not_contains hout false).symm

/-- Taking an area out of a mask clears the area and leaves the rest. -/
theorem Layers.get_without (area : Mask) (x y : Nat) :
    (Layers.without m area).get x y = (m.get x y && !area.get x y) := by
  rw [without, Mask.get_ofFn]
  split
  · rfl
  · next hout => rw [show m.get x y = false from Grid.getD_of_not_contains hout false, Bool.false_and]

end Paint

namespace Layers

variable {l : Layers} {z : Zone} {x y : Nat}

/-- A zone keeps the size of the layers. -/
theorem size_applyZone (l : Layers) (z : Zone) : (l.applyZone z).size = l.size := by
  rw [applyZone]
  split <;> rfl

/-- A list of zones keeps the size of the layers. -/
theorem size_foldl (l : Layers) (zones : List Zone) : (zones.foldl applyZone l).size = l.size := by
  induction zones generalizing l with
  | nil => rfl
  | cons z zones ih => exact (ih _).trans (l.size_applyZone z)

/-- The layer of detected pictures selects a pixel after a zone: as the zone says where it covers, and as
before elsewhere. -/
theorem auto_applyZone (l : Layers) (z : Zone) (x y : Nat) : (l.applyZone z).auto.get x y =
    if z.tag ≠ .fill ∧ z.Covers l.size x y then decide (z.tag = .pictureAdd) else l.auto.get x y := by
  rw [applyZone]
  split
  · next htag => rw [if_neg fun h => h.1 htag]
  · next htag =>
    simp only [htag, Zone.get_paint, size]
    simp
  · next htag =>
    simp only [htag, Zone.get_paint, size]
    simp
  · next htag =>
    simp only [htag, get_without]
    by_cases hcover : z.Covers l.size x y
    · rw [if_pos ⟨by decide, hcover⟩, show (z.coverage l.size).get x y = true from hcover]
      simp
    · rw [if_neg fun h => hcover h.2, eq_false_of_ne_true hcover]
      simp

/-- The last zone for pictures that covers a pixel decides the layer of detected pictures there. -/
theorem auto_foldl (l : Layers) (zones : List Zone) (x y : Nat) : (zones.foldl applyZone l).auto.get x y =
    match Zone.lastPictureTag? zones l.size x y with
    | none => l.auto.get x y
    | some tag => decide (tag = .pictureAdd) := by
  induction zones using List.reverseRecOn with
  | nil => rfl
  | append_singleton zones z ih =>
    rw [List.foldl_append, List.foldl_cons, List.foldl_nil, auto_applyZone, size_foldl, Zone.lastPictureTag?,
      List.filter_append]
    by_cases hdecides : z.tag ≠ .fill ∧ z.Covers l.size x y
    · simp [hdecides]
    · rw [if_neg hdecides, ih, Zone.lastPictureTag?]
      simp [hdecides]

/-- A zone that takes its area out of every layer leaves no layer that selects a pixel it covers. -/
theorem selects_applyZone_of_subtractAll (htag : z.tag = .pictureSubtractAll) (hcover : z.Covers l.size x y) :
    (l.applyZone z).selects x y = false := by
  have harea : (z.coverage l.size).get x y = true := hcover
  rw [applyZone, htag]
  simp only [selects, get_without, harea]
  cases l.foreground with
  | none => simp
  | some m => simp [get_without, harea]

/-- The rectangles select a pixel after a zone as before, unless the zone takes it out of every layer. -/
theorem pictures_applyZone (l : Layers) (z : Zone) (x y : Nat) : (l.applyZone z).pictures.get x y =
    (l.pictures.get x y && !decide (z.tag = .pictureSubtractAll ∧ z.Covers l.size x y)) := by
  rw [applyZone]
  split
  all_goals next htag => simp [htag, get_without, Zone.Covers]

/-- The foreground selects a position, if there is a foreground. -/
def front (l : Layers) (x y : Nat) : Bool := (l.foreground.map (·.get x y)).getD false

/-- The foreground selects a pixel after a zone as before, unless the zone takes it out of every layer. -/
theorem front_applyZone (l : Layers) (z : Zone) (x y : Nat) : (l.applyZone z).front x y =
    (l.front x y && !decide (z.tag = .pictureSubtractAll ∧ z.Covers l.size x y)) := by
  rw [applyZone]
  split
  · next htag => simp [htag, front]
  · next htag => simp [htag, front]
  · next htag => simp [htag, front]
  · next htag => cases hfront : l.foreground <;> simp [htag, hfront, front, get_without, Zone.Covers]

/-- No layer selects a pixel when none of the three does. -/
theorem selects_eq_false_iff : l.selects x y = false ↔
    l.auto.get x y = false ∧ l.pictures.get x y = false ∧ l.front x y = false := by
  rw [selects, Bool.or_eq_false_iff, Bool.or_eq_false_iff, and_assoc, front]

/-- A pixel that no layer selects stays so until a zone adds it. -/
theorem selects_applyZone_of_not_add (h : l.selects x y = false)
    (hz : z.tag = .pictureAdd → ¬ z.Covers l.size x y) :
    (l.applyZone z).selects x y = false := by
  obtain ⟨hauto, hpictures, hfront⟩ := selects_eq_false_iff.mp h
  refine selects_eq_false_iff.mpr ⟨?_, ?_, ?_⟩
  · rw [auto_applyZone]
    split
    · next hdecides => exact decide_eq_false fun htag => hz htag hdecides.2
    · exact hauto
  · rw [pictures_applyZone, hpictures, Bool.false_and]
  · rw [front_applyZone, hfront, Bool.false_and]

/-- No zone takes the pixel out of every layer. -/
def Spared (zones : List Zone) (size : Size) (x y : Nat) : Prop :=
  ∀ z ∈ zones, z.tag = .pictureSubtractAll → ¬ z.Covers size x y

/-- A reading that every zone leaves alone, unless it takes the pixel out of every layer, stays under a list of
zones that spares the pixel and is cleared by any other. -/
theorem foldl_spared (read : Layers → Bool) (hstep : ∀ l z, read (l.applyZone z) =
      (read l && !decide (z.tag = .pictureSubtractAll ∧ z.Covers l.size x y))) (l : Layers) (zones : List Zone) :
    read (zones.foldl applyZone l) = true ↔ read l = true ∧ Spared zones l.size x y := by
  induction zones generalizing l with
  | nil => simp [Spared]
  | cons z zones ih =>
    rw [List.foldl_cons, ih, hstep, size_applyZone, Bool.and_eq_true, Bool.not_eq_true', decide_eq_false_iff_not,
      and_assoc, not_and, Spared, Spared, List.forall_mem_cons]

/-- Zones leave of the rectangles the pixels that they spare. -/
theorem pictures_foldl (l : Layers) (zones : List Zone) (x y : Nat) :
    (zones.foldl applyZone l).pictures.get x y = true ↔ l.pictures.get x y = true ∧ Spared zones l.size x y :=
  foldl_spared (fun l => l.pictures.get x y) (fun l z => l.pictures_applyZone z x y) l zones

/-- Zones leave of the foreground the pixels that they spare. -/
theorem front_foldl (l : Layers) (zones : List Zone) (x y : Nat) :
    (zones.foldl applyZone l).front x y = true ↔ l.front x y = true ∧ Spared zones l.size x y :=
  foldl_spared (fun l => l.front x y) (fun l z => l.front_applyZone z x y) l zones

/-- Zones leave a foreground where there is one. -/
theorem isSome_foreground_foldl (l : Layers) (zones : List Zone) :
    (zones.foldl applyZone l).foreground.isSome = l.foreground.isSome := by
  induction zones generalizing l with
  | nil => rfl
  | cons z zones ih =>
    rw [List.foldl_cons, ih, applyZone]
    split
    · rfl
    · rfl
    · rfl
    · exact Option.isSome_map

/-- A zone that takes its area out of every layer rules a pixel unless a later zone adds it. -/
theorem selects_foldl_of_subtractAll {before after : List Zone} (htag : z.tag = .pictureSubtractAll)
    (hcover : z.Covers l.size x y) (hafter : ∀ z' ∈ after, z'.tag = .pictureAdd → ¬ z'.Covers l.size x y) :
    ((before ++ z :: after).foldl applyZone l).selects x y = false := by
  rw [List.foldl_append, List.foldl_cons]
  have hsize : ((before.foldl applyZone l).applyZone z).size = l.size := by rw [size_applyZone, size_foldl]
  have hclear : ((before.foldl applyZone l).applyZone z).selects x y = false := by
    refine selects_applyZone_of_subtractAll htag ?_
    rwa [size_foldl]
  generalize (before.foldl applyZone l).applyZone z = cleared at hsize hclear
  clear hcover
  induction after generalizing cleared with
  | nil => exact hclear
  | cons z' after ih =>
    refine ih (fun z'' hz'' => hafter z'' (List.mem_cons_of_mem z' hz'')) _ ?_ ?_
    · rw [size_applyZone, hsize]
    · exact selects_applyZone_of_not_add hclear (hsize ▸ hafter z' List.mem_cons_self)

end Layers

section Fill

variable {r : Raster} {x y : Nat}

/-- A filled zone paints the pixels it covers. -/
theorem word_fillZone (r : Raster) (z : Zone) (hxy : r.size.Contains x y) : (fillZone r z).word x y =
    if z.Covers r.size x y then fillWord r.format (z.fillColor.getD Color.white) else r.word x y := by
  rw [fillZone, Raster.word_ofFn, if_pos hxy]
  rfl

/-- What every filled zone keeps, all of them keep. -/
theorem fillZones_induction (P : Raster → Prop) (zones : List Zone) (h : P r)
    (hstep : ∀ r, P r → ∀ z ∈ zones, z.tag = .fill → P (fillZone r z)) : P (fillZones r zones) := by
  rw [fillZones]
  have hfill : ∀ z ∈ zones.filter (·.tag = .fill), z ∈ zones ∧ z.tag = .fill := fun z hz => by
    obtain ⟨hmem, htag⟩ := List.mem_filter.mp hz
    exact ⟨hmem, of_decide_eq_true htag⟩
  generalize zones.filter (·.tag = .fill) = fills at hfill
  induction fills generalizing r with
  | nil => exact h
  | cons z fills ih =>
    obtain ⟨hmem, htag⟩ := hfill z List.mem_cons_self
    exact ih (hstep r h z hmem htag) fun z' hz' => hfill z' (List.mem_cons_of_mem z hz')

/-- Filling keeps the size of a page. -/
theorem size_fillZones (r : Raster) (zones : List Zone) : (fillZones r zones).size = r.size :=
  fillZones_induction (fun r' => r'.size = r.size) zones rfl fun _ h _ _ _ => h

/-- Filling keeps the format of a page. -/
theorem format_fillZones (r : Raster) (zones : List Zone) : (fillZones r zones).format = r.format :=
  fillZones_induction (fun r' => r'.format = r.format) zones rfl fun _ h _ _ _ => h

/-- A pixel that no filled zone covers keeps its word. -/
theorem word_fillZones {zones : List Zone} (hxy : r.size.Contains x y)
    (hfree : ∀ z ∈ zones, z.tag = .fill → ¬ z.Covers r.size x y) :
      (fillZones r zones).word x y = r.word x y := by
  refine (fillZones_induction (fun r' => r'.size = r.size ∧ r'.word x y = r.word x y) zones ⟨rfl, rfl⟩ ?_).2
  rintro r' ⟨hsize, hword⟩ z hz htag
  refine ⟨hsize, ?_⟩
  rw [word_fillZone r' z (hsize ▸ hxy), hsize, if_neg (hfree z hz htag), hword]

end Fill

end ScannedPage
