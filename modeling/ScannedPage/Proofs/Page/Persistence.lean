import Mathlib.Tactic.MkIffOfInductiveProp
import ScannedPage.Page.Storage
import ScannedPage.Proofs.Document.Omission
import ScannedPage.Proofs.Words

/-!
# Stored settings come back

Settings are stored as a record and read back from it. Whatever they are, they come back as they were, if only
every floating-point number in them is finite and every whole number fits the width of its field
(`PageSettings.Storable`).

Most fields may be missing from the record: those of the settings themselves, those of the layer switches, the
parameters of a threshold method but not its name, the colour of a zone and the angle of an ellipse
(`PageSettings.Removable`). Whichever of them are left out of the record, the settings come back with the defaults
of these fields and are otherwise as they were (`PageSettings.without`). The argument follows the parts of a record
from the inside out, with one lemma for each part that says how it is read after some of its fields are gone.
-/

namespace ScannedPage

open Value

namespace Value

/-- A whole number that fits is read as itself. -/
theorem asInt32?_int {i : Int} (h : IsInt32 i) : asInt32? (.int i) = some i := by
  simp only [IsInt32] at h
  simp only [asInt32?, asInt?, untagged, Option.filter_some, decide_eq_true h, if_true]

/-- A natural number up to a bound is read as itself. -/
theorem asNat?_int {high n : Nat} (h : n ≤ high) : asNat? high (.int n) = some n := by
  simp only [asNat?, untagged, if_pos (Int.natCast_nonneg n), Int.toNat_natCast, Option.filter_some,
    decide_eq_true h, if_true]

/-- A finite number is read as itself. -/
theorem asFloat?_ofFloat {x : Float} (h : x.isFinite = true) : asFloat? (ofFloat x) = some x := by
  rw [ofFloat, if_pos h, asFloat?]

/-- A number means itself. -/
theorem settle?_ofFloat (x : Float) : (ofFloat x).settle? = some (ofFloat x) := by
  rw [ofFloat]
  split <;> rw [settle?]

/-- A number has no parts. -/
theorem depth_ofFloat (x : Float) : (ofFloat x).depth = 0 := by
  rw [ofFloat]
  split <;> rw [depth]

section Kept

variable (o : Omission) (name : String)

/-- A number has nothing that could be left out of it. -/
theorem prune_ofFloat (x : Float) : (ofFloat x).prune o = ofFloat x := by
  rw [ofFloat]
  split <;> rw [prune]

/-- A truth value is read as itself, or by default if it is left out. -/
theorem orDefault?_bool (b default : Bool) :
    orDefault? asBool? default (kept o name (some (.bool b))) = some (o.reset name default b) :=
  orDefault?_kept o (by rw [prune]; rfl) default

/-- A whole number that fits is read as itself, or by default if it is left out. -/
theorem orDefault?_int {i : Int} (h : IsInt32 i) (default : Int) :
    orDefault? asInt32? default (kept o name (some (.int i))) = some (o.reset name default i) :=
  orDefault?_kept o (by rw [prune, asInt32?_int h]) default

/-- A natural number up to a bound is read as itself, or by default if it is left out. -/
theorem orDefault?_nat {high n : Nat} (h : n ≤ high) (default : Nat) :
    orDefault? (asNat? high) default (kept o name (some (.int n))) = some (o.reset name default n) :=
  orDefault?_kept o (by rw [prune, asNat?_int h]) default

/-- A finite number is read as itself, or by default if it is left out. -/
theorem orDefault?_float {x : Float} (h : x.isFinite = true) (default : Float) :
    orDefault? asFloat? default (kept o name (some (ofFloat x))) = some (o.reset name default x) :=
  orDefault?_kept o (by rw [prune_ofFloat, asFloat?_ofFloat h]) default

/-- A part that does not lie too deep stays so with fields left out. -/
theorem whole?_prune {α : Type} {rules : DocumentRules} {level : Nat} {v : Value}
    (h : level + v.depth ≤ rules.deepest) (decode : Value → Option α) :
    whole? rules level decode (v.prune o) = decode (v.prune o) :=
  if_pos (Nat.le_trans (Nat.add_le_add_left (depth_prune_le o v) level) h)

end Kept

end Value

namespace Threshold

/-- The window fits and the coefficient is finite. -/
def LocalParameters.Storable (p : LocalParameters Float) : Prop := IsNat32 p.window ∧ p.coefficient.isFinite = true

instance (p : LocalParameters Float) : Decidable p.Storable := inferInstanceAs (Decidable (_ ∧ _))

/-- The parameters with defaults for those that are left out. -/
def LocalParameters.without (o : Omission) (p : LocalParameters Float) : LocalParameters Float :=
  ⟨o.reset "window" 199 p.window, o.reset "coefficient" 0.3 p.coefficient⟩

namespace Method

/-- Every number fits or is finite. -/
def Storable : Method Float → Prop
  | otsu a => IsInt32 a
  | sauvola p a => p.Storable ∧ IsInt32 a
  | wolf p a lower upper => p.Storable ∧ IsInt32 a ∧ IsNat8 lower ∧ IsNat8 upper
  | gatos p scale noise a => p.Storable ∧ scale.isFinite = true ∧ noise.isFinite = true ∧ IsInt32 a

/-- Whether a method can be stored can be computed. -/
instance : (m : Method Float) → Decidable m.Storable
  | otsu a => inferInstanceAs (Decidable (IsInt32 a))
  | sauvola .. => inferInstanceAs (Decidable (_ ∧ _))
  | wolf .. => inferInstanceAs (Decidable (_ ∧ _ ∧ _ ∧ _))
  | gatos .. => inferInstanceAs (Decidable (_ ∧ _ ∧ _ ∧ _))

/-- Every parameter may be left out, but not the name of the method. -/
inductive Removable : List Key → Prop
  | parameter {name : String} (h : name ≠ "method") : Removable [.field name]

/-- The method with defaults for the parameters that are left out. -/
def without (o : Omission) : Method Float → Method Float
  | otsu a => otsu (o.reset "adjustment" 0 a)
  | sauvola p a => sauvola (p.without o) (o.reset "adjustment" 0 a)
  | wolf p a lower upper =>
    wolf (p.without o) (o.reset "adjustment" 0 a) (o.reset "lower_bound" 1 lower)
      (o.reset "upper_bound" 254 upper)
  | gatos p scale noise a =>
    gatos (p.without o) (o.reset "scale" 0.6 scale) (o.reset "noise_sigma" 3.0 noise) (o.reset "adjustment" 0 a)

/-- A method from which nothing is left out is as it was. -/
theorem without_eq_self {o : Omission} (h : o.IsNone) (m : Method Float) : m.without o = m := by
  cases m <;> simp only [without, LocalParameters.without, h.reset]

/-- A method is a record of numbers. -/
theorem depth_toValue_le (m : Method Float) : m.toValue.depth ≤ 1 := by
  cases m <;> exact depth_ofFields_le (by simp [depth, depth_ofFloat])

variable {o : Omission}

/-- An adjustment is read as itself, or as zero if it is left out. -/
theorem adjustment?_kept {a : Int} (h : IsInt32 a) :
    adjustment? (kept o "adjustment" (some (.int a))) = some (o.reset "adjustment" 0 a) :=
  orDefault?_int o _ h 0

/-- Local parameters are read as they are, each by default if it is left out. -/
theorem localParameters?_kept {p : LocalParameters Float} (h : p.Storable) :
    localParameters? (kept o "window" (some (.int p.window)))
      (kept o "coefficient" (some (ofFloat p.coefficient))) =
      some (p.without o) := by
  rw [localParameters?, asNat32?, orDefault?_nat o _ h.1, orDefault?_float o _ h.2]
  rfl

/-- A method comes back, with defaults for the parameters that are left out. -/
theorem ofValue?_prune {m : Method Float} (h : m.Storable) (ho : o.Only Removable) :
    ofValue? (m.toValue.prune o) = some (m.without o) := by
  have hmethod : o [.field "method"] = false := ho.stays fun ⟨hname⟩ => hname rfl
  cases m with
  | otsu a =>
    rw [ofValue?, toValue, choice?_prune o hmethod (by simp) (by simp [prune, settle?])]
    simp [slots?_prune, adjustment?_kept h, without]
  | sauvola p a =>
    obtain ⟨hp, ha⟩ := h
    rw [ofValue?, toValue,
      choice?_prune o hmethod (by simp) (by simp [prune, settle?, prune_ofFloat, settle?_ofFloat])]
    simp [slots?_prune, List.lookup_cons, localParameters?_kept hp, adjustment?_kept ha, without]
  | wolf p a lower upper =>
    obtain ⟨hp, ha, hlower, hupper⟩ := h
    rw [ofValue?, toValue,
      choice?_prune o hmethod (by simp) (by simp [prune, settle?, prune_ofFloat, settle?_ofFloat])]
    simp [slots?_prune, List.lookup_cons, localParameters?_kept hp, adjustment?_kept ha, asNat8?,
      orDefault?_nat o _ hlower, orDefault?_nat o _ hupper, without]
    exact ⟨rfl, rfl⟩
  | gatos p scale noise a =>
    obtain ⟨hp, hscale, hnoise, ha⟩ := h
    rw [ofValue?, toValue,
      choice?_prune o hmethod (by simp) (by simp [prune, settle?, prune_ofFloat, settle?_ofFloat])]
    simp [slots?_prune, List.lookup_cons, localParameters?_kept hp, adjustment?_kept ha,
      orDefault?_float o _ hscale, orDefault?_float o _ hnoise, without]
    exact ⟨rfl, rfl⟩

end Method

end Threshold

namespace Point

/-- A position can be stored if both of its coordinates are finite. -/
def Storable (p : Point Float) : Prop := p.x.isFinite = true ∧ p.y.isFinite = true

instance (p : Point Float) : Decidable p.Storable := inferInstanceAs (Decidable (_ ∧ _))

/-- A position comes back. -/
theorem ofValue?_toValue {p : Point Float} (h : p.Storable) : ofValue? p.toValue = some p := by
  rw [ofValue?, toValue]
  simp [slots?_ofFields, List.lookup_cons, required?, asFloat?_ofFloat h.1, asFloat?_ofFloat h.2]

/-- A position means itself. -/
theorem settle?_toValue (p : Point Float) : p.toValue.settle? = some p.toValue := by
  rw [toValue, ofFields, settle?, settleFields?_ofFields (by simp [settle?_ofFloat])]
  rfl

/-- A position is a record of numbers. -/
theorem depth_toValue_le (p : Point Float) : p.toValue.depth ≤ 1 := depth_ofFields_le (by simp [depth_ofFloat])

end Point

namespace ZoneShape

/-- Every coordinate, radius and angle is finite. -/
def Storable : ZoneShape → Prop
  | polygon vertices => ∀ p ∈ vertices, p.Storable
  | ellipse centre rx ry angle =>
    centre.Storable ∧ rx.isFinite = true ∧ ry.isFinite = true ∧ angle.isFinite = true

/-- Whether a shape can be stored can be computed. -/
instance : (shape : ZoneShape) → Decidable shape.Storable
  | polygon vertices => inferInstanceAs (Decidable (∀ p ∈ vertices, p.Storable))
  | ellipse .. => inferInstanceAs (Decidable (_ ∧ _ ∧ _ ∧ _))

/-- The angle of an ellipse may be left out. -/
@[mk_iff]
inductive Removable : List Key → Prop
  | angle : Removable [.field "angle_degrees"]

/-- The shape without a turn if the angle is left out. -/
def without (o : Omission) : ZoneShape → ZoneShape
  | polygon vertices => polygon vertices
  | ellipse centre rx ry angle => ellipse centre rx ry (o.reset "angle_degrees" 0.0 angle)

/-- A shape from which nothing is left out is as it was. -/
theorem without_eq_self {o : Omission} (h : o.IsNone) (shape : ZoneShape) : shape.without o = shape := by
  cases shape <;> simp only [without, h.reset]

/-- Positions in a list mean themselves. -/
theorem settle?_vertices (vertices : List (Point Float)) :
    (list (vertices.map Point.toValue)).settle? = some (list (vertices.map Point.toValue)) := by
  rw [settle?, settleItems?_eq fun v hv => ?_]
  · rfl
  · obtain ⟨p, _, rfl⟩ := List.mem_map.mp hv
    exact p.settle?_toValue

/-- Positions in a list come back. -/
theorem vertices?_toValue {vertices : List (Point Float)} (h : ∀ p ∈ vertices, p.Storable) :
    vertices? (list (vertices.map Point.toValue)) = some vertices :=
  mapM_encode fun p hp => Point.ofValue?_toValue (h p hp)

/-- A shape is a record with a list of positions at most. -/
theorem depth_toValue_le (shape : ZoneShape) : shape.toValue.depth ≤ 3 := by
  cases shape with
  | polygon vertices =>
    have hlist : (list (vertices.map Point.toValue)).depth ≤ 2 := depth_list_le fun v hv => by
      obtain ⟨p, _, rfl⟩ := List.mem_map.mp hv
      exact p.depth_toValue_le
    refine depth_ofFields_le fun field hfield => ?_
    rcases List.mem_pair.mp hfield with rfl | rfl
    · exact Nat.zero_le _
    · exact hlist
  | ellipse centre rx ry angle =>
    have hcentre := Nat.le_trans centre.depth_toValue_le (by decide : 1 ≤ 2)
    exact depth_ofFields_le (by simp [depth, depth_ofFloat, hcentre])

variable {o : Omission}

/-- A shape comes back, without a turn if the angle is left out. -/
theorem ofValue?_prune {shape : ZoneShape} (h : shape.Storable) (ho : o.Only Removable) :
    ofValue? (shape.toValue.prune o) = some (shape.without o) := by
  have hstays {name : String} (hname : name ≠ "angle_degrees") : o [.field name] = false :=
    ho.stays (by simpa [removable_iff] using hname)
  have hkept {name : String} (hname : name ≠ "angle_degrees") : (o.under (.field name)).IsNone :=
    ho.isNone_under (by simp [removable_iff, hname])
  cases shape with
  | polygon vertices =>
    have hvertices := hkept (by decide : "vertices" ≠ "angle_degrees")
    have hread : vertices? ((list (vertices.map Point.toValue)).prune (o.under (.field "vertices"))) =
        some vertices := by
      rw [prune_eq_self hvertices, vertices?_toValue h]
    rw [ofValue?, toValue, choice?_prune o (hstays (by decide)) (by simp)
      (by simp [prune_eq_self hvertices, settle?_vertices])]
    simp [slots?_prune, required?_kept o (hstays (by decide)) hread, without]
  | ellipse centre rx ry angle =>
    obtain ⟨hcentre, hrx, hry, hangle⟩ := h
    have hplace := hkept (by decide : "center" ≠ "angle_degrees")
    have hread : Point.ofValue? (centre.toValue.prune (o.under (.field "center"))) = some centre := by
      rw [prune_eq_self hplace, Point.ofValue?_toValue hcentre]
    have hradius {r : Float} (hr : r.isFinite = true) (name : String) (hname : name ≠ "angle_degrees") :
        required? asFloat? (kept o name (some (ofFloat r))) = some r :=
      required?_kept o (hstays hname) (by rw [prune_ofFloat, asFloat?_ofFloat hr])
    rw [ofValue?, toValue, choice?_prune o (hstays (by decide)) (by simp)
      (by simp [prune_eq_self hplace, Point.settle?_toValue, prune_ofFloat, settle?_ofFloat])]
    simp [slots?_prune, List.lookup_cons, required?_kept o (hstays (by decide)) hread,
      hradius hrx, hradius hry, orDefault?_float o _ hangle, without]

end ZoneShape

namespace Zone

/-- The shape can be stored, and the colour fits if there is one. -/
structure Storable (z : Zone) : Prop where
  shape : z.shape.Storable
  fillColor : ∀ color ∈ z.fillColor, IsNat32 color

/-- Whether a zone can be stored can be computed. -/
instance (z : Zone) : Decidable z.Storable :=
  decidable_of_iff (z.shape.Storable ∧ ∀ color ∈ z.fillColor, IsNat32 color)
    ⟨fun h => ⟨h.1, h.2⟩, fun h => ⟨h.1, h.2⟩⟩

/-- The colour of a zone may be left out, and what may be left out of its shape. -/
@[mk_iff]
inductive Removable : List Key → Prop
  | colour : Removable [.field "fill_color"]
  | shape {way : List Key} (h : ZoneShape.Removable way) : Removable (.field "shape" :: way)

/-- The zone without a colour of its own if that is left out, and with a default for what is left out of its
shape. -/
def without (o : Omission) (z : Zone) : Zone :=
  ⟨z.shape.without (o.under (.field "shape")), z.tag, o.reset "fill_color" none z.fillColor⟩

/-- A zone from which nothing is left out is as it was. -/
theorem without_eq_self {o : Omission} (h : o.IsNone) (z : Zone) : z.without o = z := by
  rw [without, ZoneShape.without_eq_self (h.under _), h.reset]

variable {o : Omission} {rules : DocumentRules} {level : Nat}

/-- A zone comes back, with defaults for what is left out of it. -/
theorem ofValue?_prune {z : Zone} (h : z.Storable) (ho : o.Only Removable) (hdeep : level + 4 ≤ rules.deepest) :
    ofValue? rules level (z.toValue.prune o) = some (z.without o) := by
  have hshape : o [.field "shape"] = false := ho.stays (by simp [removable_iff, ZoneShape.removable_iff])
  have htag : o [.field "tag"] = false := ho.stays (by simp [removable_iff])
  have hunder : (o.under (.field "shape")).Only ZoneShape.Removable :=
    ho.under fun _ way hway => by simpa [removable_iff] using hway
  have hdepth := z.shape.depth_toValue_le
  have hread : whole? rules (level + 1) ZoneShape.ofValue? (z.shape.toValue.prune (o.under (.field "shape"))) =
      some (z.shape.without (o.under (.field "shape"))) := by
    rw [whole?_prune _ (by omega), ZoneShape.ofValue?_prune h.shape hunder]
  have hword : required? (fun v => v.asWord?.bind ZoneTag.ofWord?) (kept o "tag" (some (text z.tag.word))) =
      some z.tag := required?_kept o htag (by rw [prune]; exact ZoneTag.ofWord?_word z.tag)
  rw [ofValue?, toValue]
  -- without a colour there is no field for it, and none to leave out
  cases hcolor : z.fillColor with
  | none =>
    have hnone : orDefault? (nullable? asNat32?) none (kept o "fill_color" none) =
        some (o.reset "fill_color" none none) := by simp [kept, orDefault?, Omission.reset]
    simp [slots?_prune, List.lookup_cons, required?_kept o hshape hread, hword, hnone, without, hcolor]
  | some color =>
    have hsome : nullable? asNat32? ((int color).prune (o.under (.field "fill_color"))) = some (some color) := by
      rw [prune]
      exact congrArg (Option.map some) (asNat?_int (h.fillColor color hcolor))
    simp [slots?_prune, List.lookup_cons, required?_kept o hshape hread, hword, orDefault?_kept o hsome, without,
      hcolor]

end Zone

namespace Resolution

/-- A resolution can be stored if both of its axes fit. -/
def Storable (r : Resolution) : Prop := IsNat32 r.horizontal ∧ IsNat32 r.vertical

instance (r : Resolution) : Decidable r.Storable := inferInstanceAs (Decidable (_ ∧ _))

/-- A resolution comes back. -/
theorem ofValue?_toValue {r : Resolution} (h : r.Storable) (rules : DocumentRules) :
    ofValue? rules r.toValue = some r := by
  rw [ofValue?, toValue]
  simp [slots?_ofFields, List.lookup_cons, required?, asNat32?, asNat?_int h.1, asNat?_int h.2]

end Resolution

namespace MixedOptions

/-- Every layer switch may be left out. -/
inductive Removable : List Key → Prop
  | switch (name : String) : Removable [.field name]

/-- The layer switches with defaults for those that are left out. -/
def without (o : Omission) (m : MixedOptions) : MixedOptions :=
  ⟨o.reset "auto_layer" true m.autoLayer, o.reset "picture_zones_layer" true m.pictureZonesLayer,
    o.reset "foreground_layer" false m.foregroundLayer⟩

/-- Layer switches from which nothing is left out are as they were. -/
theorem without_eq_self {o : Omission} (h : o.IsNone) (m : MixedOptions) : m.without o = m := by
  simp only [without, h.reset]

/-- Layer switches come back, with defaults for those that are left out. -/
theorem ofValue?_prune (m : MixedOptions) (o : Omission) (rules : DocumentRules) :
    ofValue? rules (m.toValue.prune o) = some (m.without o) := by
  rw [ofValue?, toValue]
  simp [slots?_prune, List.lookup_cons, orDefault?_bool, without]

end MixedOptions

namespace PageSettings

/-- Every number fits or is finite, in every part. -/
structure Storable (s : PageSettings) : Prop where
  threshold : s.threshold.Storable
  zones : ∀ z ∈ s.zones, z.Storable
  targetResolution : ∀ r ∈ s.targetResolution, r.Storable
  pictureSensitivity : IsNat32 s.pictureSensitivity
  foregroundAdjustment : IsInt32 s.foregroundAdjustment

/-- Whether settings can be stored can be computed. -/
instance (s : PageSettings) : Decidable s.Storable :=
  decidable_of_iff (s.threshold.Storable ∧ (∀ z ∈ s.zones, z.Storable) ∧ (∀ r ∈ s.targetResolution, r.Storable) ∧
    IsNat32 s.pictureSensitivity ∧ IsInt32 s.foregroundAdjustment)
    ⟨fun ⟨h₁, h₂, h₃, h₄, h₅⟩ => ⟨h₁, h₂, h₃, h₄, h₅⟩, fun ⟨h₁, h₂, h₃, h₄, h₅⟩ => ⟨h₁, h₂, h₃, h₄, h₅⟩⟩

/-- Every field may be left out, and what may be left out of the threshold method, of the layer switches and of
each zone. -/
@[mk_iff]
inductive Removable : List Key → Prop
  | setting (name : String) : Removable [.field name]
  | threshold {way : List Key} (h : Threshold.Method.Removable way) : Removable (.field "threshold" :: way)
  | mixed {way : List Key} (h : MixedOptions.Removable way) : Removable (.field "mixed" :: way)
  | zone {place : Nat} {way : List Key} (h : Zone.Removable way) : Removable (.field "zones" :: .item place :: way)

/-- The settings with the default of every field that is left out. -/
def without (o : Omission) (s : PageSettings) : PageSettings where
  outputMode := o.reset "output_mode" .blackAndWhite s.outputMode
  threshold := o.reset "threshold" (.otsu 0) (s.threshold.without (o.under (.field "threshold")))
  despeckle := o.reset "despeckle" .normal s.despeckle
  zones := o.reset "zones" []
    (s.zones.zipIdx.map fun (z, place) => z.without ((o.under (.field "zones")).under (.item place)))
  targetResolution := o.reset "target_dpi" none s.targetResolution
  pictureSensitivity := o.reset "picture_sensitivity" 100 s.pictureSensitivity
  normalizeIllumination := o.reset "normalize_illumination" false s.normalizeIllumination
  smoothEdges := o.reset "smooth_edges" true s.smoothEdges
  mixed := o.reset "mixed" ⟨true, true, false⟩ (s.mixed.without (o.under (.field "mixed")))
  foregroundAdjustment := o.reset "foreground_adjustment" 0 s.foregroundAdjustment
  debug := o.reset "debug" false s.debug

/-- Settings from which nothing is left out are as they were. -/
theorem without_eq_self {o : Omission} (h : o.IsNone) (s : PageSettings) : s.without o = s := by
  have hzones : s.zones.zipIdx.map (fun (z, place) => z.without ((o.under (.field "zones")).under (.item place))) =
      s.zones := by
    simp only [Zone.without_eq_self ((h.under _).under _), List.zipIdx_map_fst]
  simp only [without, h.reset, Threshold.Method.without_eq_self (h.under _), hzones,
    MixedOptions.without_eq_self (h.under _)]

variable {o : Omission} {rules : DocumentRules} {level : Nat}

/-- Zones come back, each with defaults for what is left out of it. -/
theorem zones?_prune {zones : List Zone} (h : ∀ z ∈ zones, z.Storable)
    (ho : ∀ place, (o.under (.item place)).Only Zone.Removable) (hdeep : level + 5 ≤ rules.deepest) :
    zones? rules level ((list (zones.map Zone.toValue)).prune o) =
      some (zones.zipIdx.map fun (z, place) => z.without (o.under (.item place))) := by
  rw [prune, zones?]
  exact mapM_pruneItems 0 fun place z hz => Zone.ofValue?_prune (h z hz) (ho place) (by omega)

/-- A target resolution comes back, also where there is none. -/
theorem target?_prune {target : Option Resolution} (h : ∀ r ∈ target, r.Storable) (ho : o.IsNone) :
    nullable? (Resolution.ofValue? rules) (((target.map Resolution.toValue).getD .null).prune o) =
      some target := by
  rw [prune_eq_self ho]
  cases target with
  | none => rfl
  | some r => exact congrArg (Option.map some) (Resolution.ofValue?_toValue (h r rfl) rules)

/-- Settings come back, with defaults for what is left out of them. -/
theorem ofValue?_prune {s : PageSettings} (h : s.Storable) (ho : o.Only Removable)
    (hdeep : level + 6 ≤ rules.deepest) :
    ofValue? rules level (s.toValue.prune o) = some (s.without o) := by
  have hdepth := s.threshold.depth_toValue_le
  -- one fact for each field that is more than a number or a truth value
  have hmode (default : OutputMode) : orDefault? (fun v => v.asWord?.bind OutputMode.ofWord?) default
      (kept o "output_mode" (some (text s.outputMode.word))) = some (o.reset "output_mode" default s.outputMode) :=
    orDefault?_kept o (by rw [prune]; exact OutputMode.ofWord?_word _) default
  have hpolicy (default : DespecklePolicy) : orDefault? (fun v => v.asWord?.bind DespecklePolicy.ofWord?) default
      (kept o "despeckle" (some (text s.despeckle.word))) = some (o.reset "despeckle" default s.despeckle) :=
    orDefault?_kept o (by rw [prune]; exact DespecklePolicy.ofWord?_word _) default
  have hthreshold : whole? rules (level + 1) Threshold.Method.ofValue?
      (s.threshold.toValue.prune (o.under (.field "threshold"))) =
        some (s.threshold.without (o.under (.field "threshold"))) := by
    rw [whole?_prune _ (by omega)]
    exact Threshold.Method.ofValue?_prune h.threshold
      (ho.under fun _ way hway => by simpa [removable_iff] using hway)
  have hzones : zones? rules (level + 1) ((list (s.zones.map Zone.toValue)).prune (o.under (.field "zones"))) =
      some _ :=
    zones?_prune h.zones (fun place key way hway => by
      simpa [removable_iff] using ho (.field "zones") (.item place :: key :: way) hway) (by omega)
  have htarget : nullable? (Resolution.ofValue? rules)
      (((s.targetResolution.map Resolution.toValue).getD .null).prune (o.under (.field "target_dpi"))) = some _ :=
    target?_prune h.targetResolution (ho.isNone_under fun _ way => by simp [removable_iff])
  have hmixed := s.mixed.ofValue?_prune (o.under (.field "mixed")) rules
  rw [ofValue?, toValue, slots?_prune o (by simp [fieldNames])]
  simp [fieldNames, List.lookup_cons, hmode, hpolicy, orDefault?_bool, asNat32?, orDefault?_kept o hthreshold,
    orDefault?_kept o hzones, orDefault?_kept o htarget, orDefault?_kept o hmixed,
    orDefault?_nat o _ h.pictureSensitivity, orDefault?_int o _ h.foregroundAdjustment, without]
  rfl

/-- Settings survive storage: read from the record that is stored of them they are as they were, and read from it
with any choice of removable fields left out they have the defaults of exactly these fields. -/
theorem survives_storage {s : PageSettings} (h : s.Storable) :
    ofValue? Json.rules 0 s.toValue = some s ∧ ∀ o : Omission, o.Only Removable →
      ofValue? Json.rules 0 (s.toValue.prune o) = some (s.without o) := by
  have hread (o : Omission) (ho : o.Only Removable) : ofValue? Json.rules 0 (s.toValue.prune o) =
      some (s.without o) :=
    ofValue?_prune h ho (by decide)
  have hwhole := hread .nothing nofun
  rw [prune_eq_self Omission.isNone_nothing, without_eq_self Omission.isNone_nothing] at hwhole
  exact ⟨hwhole, hread⟩

/-- Settings with a polygon and an ellipse come back, without what is left out of the record. -/
theorem survives_storage_two_zones :
    let square : ZoneShape := .polygon [⟨0.0, 0.0⟩, ⟨4.5, 0.0⟩, ⟨4.5, 4.5⟩]
    let s : PageSettings :=
      { threshold := .wolf ⟨51, 0.25⟩ (-7) 10 240
        zones := [⟨square, .fill, some 4278190335⟩, ⟨.ellipse ⟨5.0, 5.0⟩ 2.0 3.0 30.0, .pictureAdd, none⟩]
        targetResolution := some (.uniform 600)
        mixed := { foregroundLayer := true }
        debug := true }
    let o : Omission := fun way => decide (way ∈ [[.field "debug"], [.field "threshold", .field "window"],
      [.field "mixed", .field "foreground_layer"], [.field "zones", .item 0, .field "fill_color"],
      [.field "zones", .item 1, .field "shape", .field "angle_degrees"]])
    ofValue? Json.rules 0 s.toValue = some s ∧ ofValue? Json.rules 0 (s.toValue.prune o) = some { s with
      threshold := .wolf ⟨199, 0.25⟩ (-7) 10 240
      zones := [⟨square, .fill, none⟩, ⟨.ellipse ⟨5.0, 5.0⟩ 2.0 3.0 0.0, .pictureAdd, none⟩]
      mixed := {}
      debug := false } := by
  intro square s o
  have hstorable : s.Storable := by decide +kernel
  have hremovable : o.Only Removable := fun key way ho => by
    simp only [o, List.mem_cons, List.not_mem_nil, or_false, decide_eq_true_eq] at ho
    rcases ho with ho | ho | ho | ho | ho <;> rw [ho]
    · exact .setting _
    · exact .threshold (.parameter (by decide))
    · exact .mixed (.switch _)
    · exact .zone .colour
    · exact .zone (.shape .angle)
  obtain ⟨hwhole, hread⟩ := survives_storage hstorable
  exact ⟨hwhole, hread o hremovable⟩

end PageSettings

end ScannedPage
