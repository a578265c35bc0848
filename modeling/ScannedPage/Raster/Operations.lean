import ScannedPage.Raster.Sharing

/-!
# Operations on a desk of rasters

A history of a desk is a list of operations, each on rasters under names: rasters are made, shared, copied,
changed, converted and let go of. An operation replies whether it succeeded. A refused one has a reason, and the
desk stays as it was.
-/

namespace ScannedPage

/-- A way to make a raster. -/
inductive Creation
  | filled (format : PixelFormat) (width height word : Nat)
  | grayBytes (width height : Nat) (bytes : Array Nat)
  | rgbBytes (width height : Nat) (bytes : Array Nat)

/-- The raster that is made. -/
def Creation.result : Creation → Except ImageError Raster
  | filled format width height word => Raster.filled format width height word
  | grayBytes width height bytes => Raster.ofGrayBytes width height bytes
  | rgbBytes width height bytes => Raster.ofRgbBytes width height bytes

/-- Why an operation on a desk is refused. -/
inductive Refusal
  /-- The name holds nothing of the needed kind. -/
  | absent
  /-- Somebody else shares the raster. -/
  | shared
  /-- The data has no such place. -/
  | outside
  | fault (cause : ImageError)
deriving DecidableEq, Repr

/-- A change to a mutable raster. -/
inductive Edit
  | pixel (x y word : Nat)
  /-- A pixel of which only the place in the data is checked. -/
  | place (x y word : Nat)
  | fill (word : Nat)
  | resolution (p : Resolution)
  /-- A word of the data as it is. -/
  | raw (index word : Nat)

/-- The raster after a change. -/
def Edit.apply : Edit → Raster → Except Refusal Raster
  | pixel x y word, r => (r.setPixel x y word).mapError .fault
  | place x y word, r => ((r.setPlace? x y word).map .ok).getD (.error .outside)
  | fill word, r => .ok (r.fill word)
  | resolution p, r => .ok (r.withResolution p)
  | raw index word, r => ((r.writeRaw? index word).map .ok).getD (.error .outside)

/-- An operation on the rasters under names; the result goes to the last name. -/
inductive Operation
  | create (name : String) (c : Creation)
  | share (name other : String)
  | drop (name : String)
  | setResolution (name : String) (p : Resolution)
  | copy (name other : String)
  | takeOver (name : String)
  | freeze (name : String)
  | edit (name : String) (e : Edit)
  | template (name other : String) (format : PixelFormat)
  | toGray (name other : String)
  | toRgb (name other : String)
  | invert (name other : String)

/-- The name that an operation gives something new, or takes what it holds. -/
def Operation.target : Operation → String
  | create name _ | drop name | setResolution name _ | takeOver name | freeze name | edit name _ => name
  | share _ other | copy _ other | template _ other _ | toGray _ other | toRgb _ other | invert _ other => other

namespace Desk

/-- What a refused operation leaves: the reason and the desk as it was. -/
def refuse (d : Desk) (why : Refusal) : Except Refusal Unit × Desk := (.error why, d)

/-- The reply to an operation that needs a raster of some kind under its name, and may find none. -/
def settle (d : Desk) : Option Desk → Except Refusal Unit × Desk
  | some after => (.ok (), after)
  | none => d.refuse .absent

/-- The reply to an operation that ends with a raster or with the reason why there is none. -/
def settleWith (d : Desk) (next : Raster → Desk) : Except Refusal Raster → Except Refusal Unit × Desk
  | .ok r => (.ok (), next r)
  | .error why => d.refuse why

/-- The reply to an operation, and the desk after it. -/
def perform (d : Desk) : Operation → Except Refusal Unit × Desk
  | .create name c => d.settleWith (d.lay name) (c.result.mapError .fault)
  | .share name other => d.settle (d.share? name other)
  | .drop name => d.settle ((d.holding? name).map fun _ => d.drop name)
  | .setResolution name p => d.settle (d.setResolution? name p)
  | .copy name other => d.settle (d.copy? name other)
  | .takeOver name =>
    match d.takeOver? name with
    | none => d.refuse .absent
    | some (true, after) => (.ok (), after)
    | some (false, after) => (.error .shared, after)
  | .freeze name => d.settle (d.freeze? name)
  | .edit name e =>
    match d.mutable? name with
    | none => d.refuse .absent
    | some r => d.settleWith (d.give name) (e.apply r)
  | .template name other format => d.settle ((d.immutable? name).map fun r => d.give other (r.template format))
  | .toGray name other => d.settle (d.toGray? name other)
  | .toRgb name other => d.settle (d.toRgb? name other)
  | .invert name other =>
    match d.immutable? name with
    | none => d.refuse .absent
    | some r => d.settleWith (d.lay other) (r.invert.mapError .fault)

/-- The replies to a history of operations, and the desk after it. -/
def run (d : Desk) : List Operation → List (Except Refusal Unit) × Desk
  | [] => ([], d)
  | op :: history =>
    let (reply, next) := d.perform op
    let (replies, after) := next.run history
    (reply :: replies, after)

end Desk

end ScannedPage
