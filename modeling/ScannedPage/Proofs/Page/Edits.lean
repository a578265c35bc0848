import ScannedPage.Proofs.Page.Mixed
import ScannedPage.Proofs.Zone.Drawing

/-!
# Zones edit layers in place

A list of zones can be carried out on layers in place, with steps that may be refused: every layer is checked
first, then each zone is drawn into the detected pictures, or its area is made a mask and taken out of one layer
after the other. What the steps before a refused one did would stay done. But only the check is ever refused, so
the layers are edited as a whole or not at all (`edit_of_sized`, `edit_of_not_sized`). What the zones leave is
decided by them, pixel by pixel, and by the layers before (`Decides`); so deciding again changes nothing
(`Decides.again`).
-/

namespace ScannedPage

/-- Layers of other sides than the expected are refused, and no others. -/
theorem Layers.checkSides_eq_ok_iff {l : Layers} {s : Size} : l.checkSides s.sides = .ok () ↔ l.Sized s := by
  refine ⟨fun h => ?_, Layers.Sized.checkSides_eq_ok⟩
  have hlayer {role : String} {m : Mask} {done : Unit} (hm : checkLayer role m s.sides = .ok done) :
      m.size = s := by
    rw [checkLayer] at hm
    split at hm
    · next hsides => exact Size.eq_of_sides_eq hsides
    · exact absurd hm (by simp)
  obtain ⟨_, hauto, h⟩ := bind_eq_ok.mp h
  obtain ⟨_, hpictures, h⟩ := bind_eq_ok.mp h
  refine ⟨hlayer hauto, hlayer hpictures, fun m hm => ?_⟩
  rw [Option.mem_def.mp hm] at h
  exact hlayer h

/-- An area of the same size is taken out of a mask. -/
theorem Mask.andNot_eq_ok {m area : Mask} (h : area.size = m.size) :
    m.andNot area = .ok (Layers.without m area) := by
  rw [andNot, combine, Mask.checkSides_eq_ok h]
  rfl

/-- The area of a zone is what it covers. -/
theorem Zone.rasterize_eq_ok (z : Zone) (s : Size) : z.rasterize s.width s.height = .ok (z.coverage s) := by
  rw [rasterize, Size.ofSides_sides]
  rfl

namespace Layers

/-- A step on layers that may be refused. -/
abbrev Step := Layers → Except PageError Layers

/-- Steps carried out in place: the outcome, and the layers as the steps before a refused one left them. -/
def carryOut : List Step → Layers → Except PageError Unit × Layers
  | [], l => (.ok (), l)
  | step :: steps, l =>
    match step l with
    | .ok l' => carryOut steps l'
    | .error fault => (.error fault, l)

/-- Takes an area out of each layer in turn. -/
def clearSteps (area : Mask) : List Step :=
  [fun l => return { l with auto := ← (l.auto.andNot area).mapError .ofImage },
    fun l => return { l with pictures := ← (l.pictures.andNot area).mapError .ofImage },
    fun l => return { l with foreground := ← l.foreground.mapM fun m => (m.andNot area).mapError .ofImage }]

/-- The steps for one zone: it is drawn into the detected pictures, or its area is taken out of every layer. -/
def zoneSteps (size : Size) (z : Zone) : List Step :=
  match z.tag with
  | .fill => []
  | .pictureAdd => [fun l => return { l with auto := z.draw l.auto true }]
  | .pictureSubtract => [fun l => return { l with auto := z.draw l.auto false }]
  | .pictureSubtractAll =>
    match (z.rasterize size.width size.height).mapError .ofImage with
    | .ok area => clearSteps area
    | .error fault => [fun _ => .error fault]

/-- All layers are checked, and the zones act in their order. -/
def edit (zones : List Zone) (l : Layers) : Except PageError Unit × Layers :=
  carryOut ((fun l => do l.checkSides l.size.sides; return l) :: zones.flatMap (zoneSteps l.size)) l

variable {l l' : Layers} {s : Size}

/-- After steps that were not refused the next ones go on with the layers that these left. -/
theorem carryOut_append {steps : List Step} (h : carryOut steps l = (.ok (), l')) (next : List Step) :
    carryOut (steps ++ next) l = carryOut next l' := by
  induction steps generalizing l with
  | nil => rw [List.nil_append, (Prod.mk.inj h).2]
  | cons step steps ih =>
    rw [carryOut] at h
    rw [List.cons_append, carryOut]
    split at h
    · exact ih h
    · exact absurd (Prod.mk.inj h).1 (by simp)

/-- An area is taken out of layers of its size. -/
theorem carryOut_clearSteps (h : l.Sized s) {area : Mask} (harea : area.size = s) : carryOut (clearSteps area) l =
    (.ok (), ⟨without l.auto area, without l.pictures area, l.foreground.map (without · area)⟩) := by
  have htaken {m : Mask} (hm : m.size = s) :
      (m.andNot area).mapError PageError.ofImage = .ok (without m area) := by
    rw [Mask.andNot_eq_ok (harea.trans hm.symm)]
    rfl
  obtain ⟨auto, pictures, foreground⟩ := l
  have hforeground : foreground.mapM (fun m => (m.andNot area).mapError PageError.ofImage) =
      .ok (foreground.map (without · area)) := by
    cases foreground with
    | none => rfl
    | some m =>
      rw [Option.mapM_some, htaken (h.foreground m rfl)]
      rfl
  simp only [clearSteps, carryOut, htaken h.auto, htaken h.pictures, hforeground, bind, Except.bind, pure,
    Except.pure]

/-- A zone acts on layers of one size, and is not refused. -/
theorem carryOut_zoneSteps (h : l.Sized s) (z : Zone) : carryOut (zoneSteps s z) l = (.ok (), l.applyZone z) := by
  cases htag : z.tag with
  | fill =>
    simp only [zoneSteps, applyZone, htag]
    rfl
  | pictureAdd =>
    simp only [zoneSteps, applyZone, htag, Zone.draw_eq_paint]
    rfl
  | pictureSubtract =>
    simp only [zoneSteps, applyZone, htag, Zone.draw_eq_paint]
    rfl
  | pictureSubtractAll =>
    simp only [zoneSteps, applyZone, htag, Zone.rasterize_eq_ok]
    rw [size, h.auto]
    exact carryOut_clearSteps h (z.size_coverage s)

/-- A list of zones acts on layers of one size, and is not refused. -/
theorem carryOut_zones (h : l.Sized s) (zones : List Zone) :
    carryOut (zones.flatMap (zoneSteps s)) l = (.ok (), zones.foldl applyZone l) := by
  induction zones generalizing l with
  | nil => rfl
  | cons z zones ih =>
    rw [List.flatMap_cons, carryOut_append (carryOut_zoneSteps h z), ih (h.applyZone z), List.foldl_cons]

/-- Zones edit layers of one size as a whole. -/
theorem edit_of_sized (h : l.Sized l.size) (zones : List Zone) :
    edit zones l = (.ok (), zones.foldl applyZone l) := by
  rw [edit, carryOut, checkSides_eq_ok_iff.mpr h]
  exact carryOut_zones h zones

/-- Layers that differ in size are refused and stay as they were. -/
theorem edit_of_not_sized (h : ¬ l.Sized l.size) (zones : List Zone) :
    ∃ fault, l.applyZones zones = .error fault ∧ edit zones l = (.error fault, l) := by
  cases hcheck : l.checkSides l.size.sides with
  | ok done => exact absurd (checkSides_eq_ok_iff.mp hcheck) h
  | error fault =>
    refine ⟨fault, ?_, ?_⟩
    · rw [applyZones, hcheck]
      rfl
    · rw [edit, carryOut, hcheck]
      rfl

/-- What a list of zones leaves of layers. The last zone for pictures that covers a pixel decides the detected
pictures there; rectangles and foreground lose the pixels that some zone takes out of every layer. -/
structure Decides (zones : List Zone) (l l' : Layers) : Prop where
  sized : l'.Sized l.size
  isSome_foreground : l'.foreground.isSome = l.foreground.isSome
  auto_eq : ∀ x y, l'.auto.get x y = match Zone.lastPictureTag? zones l.size x y with
    | none => l.auto.get x y
    | some tag => decide (tag = .pictureAdd)
  pictures_iff : ∀ x y, l'.pictures.get x y = true ↔ l.pictures.get x y = true ∧ Spared zones l.size x y
  front_iff : ∀ x y, l'.front x y = true ↔ l.front x y = true ∧ Spared zones l.size x y

/-- Zones that act one after the other decide what is left of the layers. -/
theorem decides_foldl (h : l.Sized l.size) (zones : List Zone) : Decides zones l (zones.foldl applyZone l) where
  sized := h.foldl zones
  isSome_foreground := isSome_foreground_foldl l zones
  auto_eq := auto_foldl l zones
  pictures_iff := pictures_foldl l zones
  front_iff := front_foldl l zones

/-- Layers of one size that read the same are the same. -/
theorem Sized.ext {a b : Layers} (ha : a.Sized s) (hb : b.Sized s) (hauto : ∀ x y, a.auto.get x y = b.auto.get x y)
    (hpictures : ∀ x y, a.pictures.get x y = b.pictures.get x y) (hfront : ∀ x y, a.front x y = b.front x y)
    (hsome : a.foreground.isSome = b.foreground.isSome) : a = b := by
  have hmask {m m' : Mask} (hm : m.size = s) (hm' : m'.size = s) (hget : ∀ x y, m.get x y = m'.get x y) : m = m' :=
    Grid.ext_getD (hm.trans hm'.symm) false fun x y _ => hget x y
  have hforeground : a.foreground = b.foreground := by
    cases hm : a.foreground with
    | none =>
      rw [hm] at hsome
      exact (Option.not_isSome_iff_eq_none.mp (by rw [← hsome]; decide)).symm
    | some m =>
      rw [hm] at hsome
      obtain ⟨m', hm'⟩ := Option.isSome_iff_exists.mp hsome.symm
      rw [hm', hmask (ha.foreground m hm) (hb.foreground m' hm')]
      simpa [front, hm, hm'] using hfront
  obtain ⟨auto, pictures, _⟩ := a
  obtain ⟨auto', pictures', _⟩ := b
  rw [mk.injEq]
  exact ⟨hmask ha.auto hb.auto hauto, hmask ha.pictures hb.pictures hpictures, hforeground⟩

variable {zones : List Zone}

/-- What zones leave is decided. -/
theorem Decides.unique {a b : Layers} (ha : Decides zones l a) (hb : Decides zones l b) : a = b := by
  refine Sized.ext ha.sized hb.sized (fun x y => ?_) (fun x y => ?_) (fun x y => ?_) ?_
  · rw [ha.auto_eq, hb.auto_eq]
  · rw [Bool.eq_iff_iff, ha.pictures_iff, hb.pictures_iff]
  · rw [Bool.eq_iff_iff, ha.front_iff, hb.front_iff]
  · rw [ha.isSome_foreground, hb.isSome_foreground]

/-- Zones leave what they left before as it is. -/
theorem Decides.again (h : Decides zones l l') : Decides zones l' l' := by
  have hsize : l'.size = l.size := h.sized.auto
  refine ⟨hsize ▸ h.sized, rfl, fun x y => ?_, fun x y => ?_, fun x y => ?_⟩
  · rw [hsize, h.auto_eq]
    cases Zone.lastPictureTag? zones l.size x y <;> rfl
  · rw [hsize, h.pictures_iff, and_assoc, and_self]
  · rw [hsize, h.front_iff, and_assoc, and_self]

/-- Under another foreground zones leave the same of what they left before as of the layers before. -/
theorem Decides.under {after : Layers} (h : Decides zones l l') (foreground : Option Mask)
    (hafter : Decides zones { l with foreground } after) : Decides zones { l' with foreground } after := by
  have hsize : l'.auto.size = l.auto.size := h.sized.auto
  obtain ⟨hsized, hsome, hauto, hpictures, hfront⟩ := hafter
  refine ⟨?_, hsome, fun x y => ?_, fun x y => ?_, fun x y => ?_⟩
  · rwa [size, hsize]
  · rw [hauto, size, size, hsize, h.auto_eq]
    dsimp only [size]
    cases Zone.lastPictureTag? zones l.auto.size x y <;> rfl
  · rw [hpictures, h.pictures_iff, size, size, size, hsize, and_assoc, and_self]
  · rw [hfront, size, size, hsize]
    rfl

/-- Zones that act on layers of one size decide them. -/
theorem Sized.applyZones_decides (h : l.Sized l.size) (zones : List Zone) :
    ∃ l', l.applyZones zones = .ok l' ∧ edit zones l = (.ok (), l') ∧ Decides zones l l' := by
  obtain ⟨l', hl', _⟩ := h.applyZones_returns zones
  obtain rfl := applyZones_eq_ok hl'
  exact ⟨_, hl', edit_of_sized h zones, decides_foldl h zones⟩

/-- Zones edit layers as a whole or not at all. Layers that differ in size are refused, and in place they stay as
they were. Otherwise the zones act, in place as on a copy: all sizes stay, the last zone for pictures that covers a
pixel sets or clears it among the detected pictures, and rectangles and foreground lose exactly the pixels that
some zone takes out of every layer. So zones that act twice leave what they leave once, also when a foreground of
the same size is put in between: then they leave what they leave of the layers with this foreground. -/
theorem edit_as_a_whole (l : Layers) (zones : List Zone) :
    (¬ l.Sized l.size → ∃ fault, l.applyZones zones = .error fault ∧ edit zones l = (.error fault, l)) ∧
    (l.Sized l.size → ∃ l', l.applyZones zones = .ok l' ∧ edit zones l = (.ok (), l') ∧ Decides zones l l' ∧
      l'.applyZones zones = .ok l' ∧
      ∀ ink : Mask, ink.size = l.size → ∃ both, applyZones { l with foreground := some ink } zones = .ok both ∧
        applyZones { l' with foreground := some ink } zones = .ok both) := by
  refine ⟨fun h => edit_of_not_sized h zones, fun h => ?_⟩
  obtain ⟨l', happly, hedit, hdecides⟩ := h.applyZones_decides zones
  refine ⟨l', happly, hedit, hdecides, ?_, fun ink hink => ?_⟩
  · have hsized : l'.Sized l'.size := hdecides.again.sized
    obtain ⟨twice, htwice, _, hagain⟩ := hsized.applyZones_decides zones
    rw [htwice, hagain.unique hdecides.again]
  · have hsized {a : Layers} (ha : a.Sized l.size) : Sized { a with foreground := some ink } a.size :=
      ⟨rfl, ha.pictures.trans ha.auto.symm, fun m hm => by rw [← Option.some.inj hm, hink, ← ha.auto]; rfl⟩
    obtain ⟨both, hboth, _, hbefore⟩ := (hsized h).applyZones_decides zones
    obtain ⟨after, hafter, _, hunder⟩ := (hsized hdecides.sized).applyZones_decides zones
    refine ⟨both, hboth, ?_⟩
    rw [hafter, hunder.unique (hdecides.under (some ink) hbefore)]

end Layers

end ScannedPage
