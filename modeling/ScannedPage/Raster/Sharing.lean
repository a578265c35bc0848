import ScannedPage.Raster.Convert

/-!
# Sharing of rasters

A desk holds rasters under names. An immutable raster is a sheet that several names may share; a
mutable raster belongs to one name. Copying an immutable raster, and converting it to the format it
has already, only adds a name to its sheet. A sheet is changed in place only while one name holds
it, so sharing never shows in what a name reads (`Desk.read?`); it shows in the number of holders
and in whether a sheet may be taken over as mutable.
-/

namespace ScannedPage

/-- What a name on the desk holds. -/
inductive Holding
  /-- A share in a sheet. -/
  | shared (sheet : Nat)
  /-- A mutable raster of its own. -/
  | owned (raster : Raster)

/-- Sheets laid out so far, and what each name holds. -/
structure Desk where
  sheets : Array Raster
  names : List (String × Holding)

namespace Desk

/-- Nothing is laid out. -/
def empty : Desk := ⟨#[], []⟩

/-- What a name holds. -/
def holding? (d : Desk) (name : String) : Option Holding := d.names.lookup name

/-- The raster that a name reads. -/
def read? (d : Desk) (name : String) : Option Raster :=
  match d.holding? name with
  | some (.shared sheet) => d.sheets[sheet]?
  | some (.owned r) => some r
  | none => none

/-- The sheet of an immutable name. -/
def sheet? (d : Desk) (name : String) : Option Nat :=
  match d.holding? name with
  | some (.shared sheet) => some sheet
  | _ => none

/-- The immutable raster of a name. -/
def immutable? (d : Desk) (name : String) : Option Raster := (d.sheet? name).bind (d.sheets[·]?)

/-- The mutable raster of a name. -/
def mutable? (d : Desk) (name : String) : Option Raster :=
  match d.holding? name with
  | some (.owned r) => some r
  | _ => none

/-- The desk after a name has taken up something new. -/
def hold (d : Desk) (name : String) (h : Holding) : Desk :=
  { d with names := (name, h) :: d.names.filter (·.1 != name) }

/-- The desk after a name has let go of what it held. -/
def drop (d : Desk) (name : String) : Desk := { d with names := d.names.filter (·.1 != name) }

/-- Lays out a new sheet under a name. -/
def lay (d : Desk) (name : String) (r : Raster) : Desk :=
  { d with sheets := d.sheets.push r }.hold name (.shared d.sheets.size)

/-- Gives a name a mutable raster of its own. -/
def give (d : Desk) (name : String) (r : Raster) : Desk := d.hold name (.owned r)

/-- The number of names that share a sheet. -/
def holders (d : Desk) (sheet : Nat) : Nat :=
  (d.names.filter fun entry =>
    match entry.2 with
    | .shared s => s == sheet
    | .owned _ => false).length

/-- The number of names that share the raster of an immutable name. -/
def refCount? (d : Desk) (name : String) : Option Nat := (d.sheet? name).map d.holders

/-- Another name for the raster of an immutable name. -/
def share? (d : Desk) (name other : String) : Option Desk :=
  (d.sheet? name).map fun sheet => d.hold other (.shared sheet)

/-- Sets the resolution of an immutable raster: in place if nobody shares it, else on a sheet of its own. -/
def setResolution? (d : Desk) (name : String) (resolution : Resolution) : Option Desk := do
  let sheet ← d.sheet? name
  let r ← d.sheets[sheet]?
  let changed := r.withResolution resolution
  if d.holders sheet = 1 then return { d with sheets := d.sheets.setIfInBounds sheet changed }
  else return d.lay name changed

/-- A mutable copy of an immutable raster under another name. -/
def copy? (d : Desk) (name other : String) : Option Desk := (d.immutable? name).map (d.give other)

/-- Takes an immutable raster over as mutable, and says whether nobody else shared it, as that needs. -/
def takeOver? (d : Desk) (name : String) : Option (Bool × Desk) := do
  let sheet ← d.sheet? name
  let r ← d.sheets[sheet]?
  if d.holders sheet = 1 then return (true, d.give name r) else return (false, d)

/-- Makes a mutable raster immutable. -/
def freeze? (d : Desk) (name : String) : Option Desk := (d.mutable? name).map (d.lay name)

/-- Puts a converted raster under another name; a conversion to the present format only shares. -/
def convert? (d : Desk) (name other : String) (format : PixelFormat) (f : Raster → Raster) : Option Desk := do
  let sheet ← d.sheet? name
  let r ← d.sheets[sheet]?
  if r.format = format then return d.hold other (.shared sheet) else return d.lay other (f r)

/-- The gray view under another name. -/
def toGray? (d : Desk) (name other : String) : Option Desk := d.convert? name other .gray8 Raster.toGray

/-- The colour view under another name. -/
def toRgb? (d : Desk) (name other : String) : Option Desk := d.convert? name other .rgb32 Raster.toRgb

end Desk

end ScannedPage
