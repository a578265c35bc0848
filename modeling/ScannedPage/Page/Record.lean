import ScannedPage.Document.Value
import ScannedPage.Page.Settings

/-!
# Settings as a document

The settings of a page are kept as a record. Writing gives every field in a fixed order; a zone without
a colour of its own has no field for it, and a number that is not finite is null. Reading ignores names
it does not know, refuses a known name that occurs twice, and fills every missing field with its
default; only the name of a method, the kind and the geometry of a shape, the tag of a zone and both
axes of a resolution have to be there. A method and a shape are read as a whole, so that nothing in them
may be unreadable, and their depth is limited.
-/

namespace ScannedPage

namespace OutputMode

/-- The word that stands for a mode. -/
def word : OutputMode → String
  | blackAndWhite => "black_and_white"
  | colorOrGrayscale => "color_or_grayscale"
  | mixed => "mixed"

/-- The mode of a word. -/
def ofWord? : String → Option OutputMode
  | "black_and_white" => some blackAndWhite
  | "color_or_grayscale" => some colorOrGrayscale
  | "mixed" => some mixed
  | _ => none

/-- The word of a mode is read as the mode. -/
theorem ofWord?_word (m : OutputMode) : ofWord? m.word = some m := by cases m <;> rfl

end OutputMode

namespace DespecklePolicy

/-- The word that stands for a policy. -/
def word : DespecklePolicy → String
  | off => "off"
  | cautious => "cautious"
  | normal => "normal"
  | aggressive => "aggressive"

/-- The policy of a word. -/
def ofWord? : String → Option DespecklePolicy
  | "off" => some off
  | "cautious" => some cautious
  | "normal" => some normal
  | "aggressive" => some aggressive
  | _ => none

/-- The word of a policy is read as the policy. -/
theorem ofWord?_word (p : DespecklePolicy) : ofWord? p.word = some p := by cases p <;> rfl

end DespecklePolicy

namespace ZoneTag

/-- The word that stands for a tag. -/
def word : ZoneTag → String
  | fill => "fill"
  | pictureAdd => "picture_add"
  | pictureSubtract => "picture_subtract"
  | pictureSubtractAll => "picture_subtract_all"

/-- The tag of a word. -/
def ofWord? : String → Option ZoneTag
  | "fill" => some fill
  | "picture_add" => some pictureAdd
  | "picture_subtract" => some pictureSubtract
  | "picture_subtract_all" => some pictureSubtractAll
  | _ => none

/-- The word of a tag is read as the tag. -/
theorem ofWord?_word (t : ZoneTag) : ofWord? t.word = some t := by cases t <;> rfl

end ZoneTag

namespace Threshold.Method

open Value

/-- A method as a record that begins with its name. -/
def toValue : Method Float → Value
  | otsu a => ofFields [("method", .text "otsu"), ("adjustment", .int a)]
  | sauvola p a =>
    ofFields [("method", .text "sauvola"), ("window", .int p.window), ("coefficient", ofFloat p.coefficient),
      ("adjustment", .int a)]
  | wolf p a lower upper =>
    ofFields [("method", .text "wolf"), ("window", .int p.window), ("coefficient", ofFloat p.coefficient),
      ("adjustment", .int a), ("lower_bound", .int lower), ("upper_bound", .int upper)]
  | gatos p scale noise a =>
    ofFields [("method", .text "gatos"), ("window", .int p.window), ("coefficient", ofFloat p.coefficient),
      ("scale", ofFloat scale), ("noise_sigma", ofFloat noise), ("adjustment", .int a)]

/-- The local parameters from their two fields. -/
def localParameters? (window coefficient : Option Value) : Option (LocalParameters Float) := do
  return ⟨← orDefault? asNat32? defaultWindow window, ← orDefault? asFloat? defaultCoefficient coefficient⟩

/-- An adjustment, zero if missing. -/
def adjustment? : Option Value → Option Int := orDefault? asInt32? 0

/-- The method of a record or of a list that begins with its name. -/
def ofValue? (v : Value) : Option (Method Float) := do
  let (name, body) ← v.choice? "method"
  match name with
  | "otsu" =>
    match ← body.slots? true ["adjustment"] with
    | [a] => return otsu (← adjustment? a)
    | _ => none
  | "sauvola" =>
    match ← body.slots? true ["window", "coefficient", "adjustment"] with
    | [window, coefficient, a] => return sauvola (← localParameters? window coefficient) (← adjustment? a)
    | _ => none
  | "wolf" =>
    match ← body.slots? true ["window", "coefficient", "adjustment", "lower_bound", "upper_bound"] with
    | [window, coefficient, a, lower, upper] =>
      return wolf (← localParameters? window coefficient) (← adjustment? a)
        (← orDefault? asNat8? defaultLower lower) (← orDefault? asNat8? defaultUpper upper)
    | _ => none
  | "gatos" =>
    match ← body.slots? true ["window", "coefficient", "scale", "noise_sigma", "adjustment"] with
    | [window, coefficient, scale, noise, a] =>
      return gatos (← localParameters? window coefficient) (← orDefault? asFloat? defaultScale scale)
        (← orDefault? asFloat? defaultNoise noise) (← adjustment? a)
    | _ => none
  | _ => none

end Threshold.Method

namespace Point

open Value

/-- A position as a record. -/
def toValue (p : Point Float) : Value := ofFields [("x", ofFloat p.x), ("y", ofFloat p.y)]

/-- The position of a record or of a list of both coordinates. -/
def ofValue? (v : Value) : Option (Point Float) := do
  match ← v.slots? true ["x", "y"] with
  | [x, y] => return ⟨← required? asFloat? x, ← required? asFloat? y⟩
  | _ => none

end Point

namespace ZoneShape

open Value

/-- A shape as a record that begins with its kind. -/
def toValue : ZoneShape → Value
  | polygon vertices => ofFields [("type", .text "polygon"), ("vertices", .list (vertices.map Point.toValue))]
  | ellipse centre rx ry angle =>
    ofFields [("type", .text "ellipse"), ("center", centre.toValue), ("rx", ofFloat rx), ("ry", ofFloat ry),
      ("angle_degrees", ofFloat angle)]

/-- The vertices of a list. -/
def vertices? (v : Value) : Option (List (Point Float)) := do (← v.asList?).mapM Point.ofValue?

/-- The shape of a record or of a list that begins with its kind; the angle may be missing. -/
def ofValue? (v : Value) : Option ZoneShape := do
  let (kind, body) ← v.choice? "type"
  match kind with
  | "polygon" =>
    match ← body.slots? true ["vertices"] with
    | [vertices] => return polygon (← required? vertices? vertices)
    | _ => none
  | "ellipse" =>
    match ← body.slots? true ["center", "rx", "ry", "angle_degrees"] with
    | [centre, rx, ry, angle] =>
      return ellipse (← required? Point.ofValue? centre) (← required? asFloat? rx) (← required? asFloat? ry)
        (← orDefault? asFloat? 0.0 angle)
    | _ => none
  | _ => none

end ZoneShape

/-- A part that is read as a whole, refused when it lies too deep. -/
def Value.whole? {α : Type} (rules : DocumentRules) (level : Nat) (decode : Value → Option α) (v : Value) :
    Option α :=
  if level + v.depth ≤ rules.deepest then decode v else none

namespace Zone

open Value

/-- A zone as a record; the colour is left out where there is none. -/
def toValue (z : Zone) : Value :=
  ofFields ([("shape", z.shape.toValue), ("tag", .text z.tag.word)] ++
    (z.fillColor.map fun color => ("fill_color", Value.int color)).toList)

/-- The zone of a record inside a number of lists and records. -/
def ofValue? (rules : DocumentRules) (level : Nat) (v : Value) : Option Zone := do
  match ← v.slots? rules.positional ["shape", "tag", "fill_color"] with
  | [shape, tag, color] =>
    return ⟨← required? (whole? rules (level + 1) ZoneShape.ofValue?) shape,
      ← required? (fun v => v.asWord?.bind ZoneTag.ofWord?) tag, ← orDefault? (nullable? asNat32?) none color⟩
  | _ => none

end Zone

namespace Resolution

open Value

/-- A resolution as a record. -/
def toValue (r : Resolution) : Value :=
  ofFields [("horizontal", .int r.horizontal), ("vertical", .int r.vertical)]

/-- The resolution of a record with both axes. -/
def ofValue? (rules : DocumentRules) (v : Value) : Option Resolution := do
  match ← v.slots? rules.positional ["horizontal", "vertical"] with
  | [horizontal, vertical] => return ⟨← required? asNat32? horizontal, ← required? asNat32? vertical⟩
  | _ => none

end Resolution

namespace MixedOptions

open Value

/-- The layer switches as a record. -/
def toValue (m : MixedOptions) : Value :=
  ofFields [("auto_layer", .bool m.autoLayer), ("picture_zones_layer", .bool m.pictureZonesLayer),
    ("foreground_layer", .bool m.foregroundLayer)]

/-- The layer switches of a record. -/
def ofValue? (rules : DocumentRules) (v : Value) : Option MixedOptions := do
  let d : MixedOptions := {}
  match ← v.slots? rules.positional ["auto_layer", "picture_zones_layer", "foreground_layer"] with
  | [auto, pictures, foreground] =>
    return ⟨← orDefault? asBool? d.autoLayer auto, ← orDefault? asBool? d.pictureZonesLayer pictures,
      ← orDefault? asBool? d.foregroundLayer foreground⟩
  | _ => none

end MixedOptions

namespace PageSettings

open Value

/-- The names of the fields in their order. -/
def fieldNames : List String :=
  ["output_mode", "threshold", "despeckle", "zones", "target_dpi", "picture_sensitivity", "normalize_illumination",
    "smooth_edges", "mixed", "foreground_adjustment", "debug"]

/-- The settings as a record. -/
def toValue (s : PageSettings) : Value :=
  ofFields (fieldNames.zip
    [.text s.outputMode.word, s.threshold.toValue, .text s.despeckle.word, .list (s.zones.map Zone.toValue),
      (s.targetResolution.map Resolution.toValue).getD .null, .int s.pictureSensitivity,
      .bool s.normalizeIllumination, .bool s.smoothEdges, s.mixed.toValue, .int s.foregroundAdjustment,
      .bool s.debug])

/-- The zones of a list inside a number of lists and records. -/
def zones? (rules : DocumentRules) (level : Nat) (v : Value) : Option (List Zone) := do
  (← v.asList?).mapM (Zone.ofValue? rules (level + 1))

/-- The settings of a record inside a number of lists and records. -/
def ofValue? (rules : DocumentRules) (level : Nat) (v : Value) : Option PageSettings := do
  let d : PageSettings := {}
  match ← v.slots? rules.positional fieldNames with
  | [mode, threshold, despeckle, zones, target, sensitivity, light, smooth, mixed, foreground, debug] =>
    return {
      outputMode := ← orDefault? (fun v => v.asWord?.bind OutputMode.ofWord?) d.outputMode mode
      threshold := ← orDefault? (whole? rules (level + 1) Threshold.Method.ofValue?) d.threshold threshold
      despeckle := ← orDefault? (fun v => v.asWord?.bind DespecklePolicy.ofWord?) d.despeckle despeckle
      zones := ← orDefault? (zones? rules (level + 1)) d.zones zones
      targetResolution := ← orDefault? (nullable? (Resolution.ofValue? rules)) d.targetResolution target
      pictureSensitivity := ← orDefault? asNat32? d.pictureSensitivity sensitivity
      normalizeIllumination := ← orDefault? asBool? d.normalizeIllumination light
      smoothEdges := ← orDefault? asBool? d.smoothEdges smooth
      mixed := ← orDefault? (MixedOptions.ofValue? rules) d.mixed mixed
      foregroundAdjustment := ← orDefault? asInt32? d.foregroundAdjustment foreground
      debug := ← orDefault? asBool? d.debug debug }
  | _ => none

end PageSettings

end ScannedPage
