import ScannedPage.Decimal.Shortest
import ScannedPage.Raster.Convert
import ScannedPage.Text.Quoted

/-!
# Numbered checks

A row of checks counts every check it makes and collects a message for each that fails, so that one run
reports every difference instead of stopping at the first.
-/

namespace ScannedPage

/-- The checks made so far under a name. -/
structure Checks where
  name : String
  /-- The number of checks. -/
  count : Nat
  /-- The messages of the checks that failed, in order. -/
  failures : List String
deriving DecidableEq, Repr

namespace Checks

/-- No check yet. -/
def start (name : String) : Checks := ⟨name, 0, []⟩

/-- Every check passed. -/
def isSuccess (c : Checks) : Bool := c.failures.isEmpty

/-- One more check, with the text for its failure. -/
def check (c : Checks) (passed : Bool) (detail : String) : Checks :=
  let count := c.count + 1
  if passed then { c with count }
  else { c with count, failures := c.failures ++ [c.name ++ "_reg #" ++ toString count ++ ": " ++ detail] }

/-- The number differs from the expected one by a tolerance at most. -/
def valuesAgree (expected actual tolerance : Float) : Bool := decide ((expected - actual).abs ≤ tolerance)

/-- Checks a number against the expected one. -/
def compareValues (c : Checks) (expected actual tolerance : Float) : Checks :=
  c.check (valuesAgree expected actual tolerance)
    ("expected " ++ Decimal.plain expected ++ ", got " ++ Decimal.plain actual ++ " (diff " ++
      Decimal.plain (expected - actual).abs ++ " > " ++ Decimal.plain tolerance ++ ")")

/-- The extent and the format of a raster. -/
def geometry (r : Raster) : String :=
  "(" ++ toString r.width ++ ", " ++ toString r.height ++ ") " ++ r.format.tag

/-- What distinguishes two rasters: their extent and format, or the first pixel. The resolution does not
count. -/
def rasterDifference? (a b : Raster) : Option String :=
  if a.size.sides = b.size.sides ∧ a.format = b.format then
    ((List.range a.words.size).find? fun i => a.words[i]? != b.words[i]?).map fun i =>
      "pixel mismatch at (" ++ toString (i % a.width) ++ ", " ++ toString (i / a.width) ++ ")"
  else some ("geometry mismatch: " ++ geometry a ++ " vs " ++ geometry b)

/-- Checks that two rasters agree in format, extent and every pixel. -/
def compareRasters (c : Checks) (a b : Raster) : Checks :=
  match rasterDifference? a b with
  | none => c.check true ""
  | some difference => c.check false difference

/-- Two masks have one size and select alike. -/
def masksAgree (a b : Mask) : Bool := decide (a.size.sides = b.size.sides ∧ a.cells = b.cells)

/-- Checks that two masks agree. -/
def compareMasks (c : Checks) (a b : Mask) : Checks :=
  c.check (masksAgree a b)
    ("mask mismatch: " ++ toString (Mask.count a) ++ " vs " ++ toString (Mask.count b) ++ " set pixels")

/-- Checks that two rows of bytes agree. -/
def compareBytes (c : Checks) (a b : List Nat) : Checks :=
  c.check (decide (a = b))
    ("string mismatch: " ++ Text.quoted (Text.ofBytes a) ++ " vs " ++ Text.quoted (Text.ofBytes b))

end Checks

end ScannedPage
