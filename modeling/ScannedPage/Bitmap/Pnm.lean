import ScannedPage.Bitmap.Basic
import ScannedPage.Document.Plain

/-!
# Portable anymap files

A file begins with its kind. Kinds 1 to 6 give the extent and the greatest sample as words, where a number
sign hides the rest of its line; kind 7 gives them on named lines and is the kind that is written. Samples
are written out as words (1 to 3) or stand as bits or bytes. Samples that do not use the full range of
their bytes are spread over it.
-/

namespace ScannedPage.Pnm

/-- What comes before the samples. -/
structure Header where
  model : ColorModel
  width : Nat
  height : Nat
  /-- The greatest sample. -/
  greatest : Nat
  /-- Samples are the words for 0 and 1, or packed bits, and 1 is black. -/
  bilevel : Bool
  /-- Samples are written out as words. -/
  asWords : Bool
  /-- Where the samples begin. -/
  start : Nat

namespace Header

/-- A sample takes two bytes. -/
def deep (h : Header) : Bool := decide (255 < h.greatest)

/-- The number of samples. -/
def count (h : Header) : Nat := h.width * h.height * h.model.channels

end Header

/-- A blank between words. -/
def isSpace (b : UInt8) : Bool := b == 32 || (decide (9 ≤ b) && decide (b ≤ 13))

/-- The word at the front of a header and the place after the blank that ends it. -/
def word? (data : ByteArray) : Nat → Nat → Bool → List Char → Option (String × Nat)
  | 0, _, _, _ => none
  | fuel + 1, place, hidden, done =>
    match data[place]? with
    | none => if done.isEmpty then none else some (String.ofList done.reverse, place)
    | some b =>
      if hidden || b == 35 then word? data fuel (place + 1) (!(hidden && (b == 10 || b == 13))) done
      else if isSpace b then
        if done.isEmpty then word? data fuel (place + 1) false done
        else some (String.ofList done.reverse, place + 1)
      else if 128 ≤ b then none
      else word? data fuel (place + 1) false (Char.ofNat b.toNat :: done)

/-- A number below `2^32` in decimal digits. -/
def number? (s : String) : Option Nat :=
  let digits := match s.toList with
    | '+' :: cs => cs
    | cs => cs
  (Plain.digits? 10 digits).filter (· < UInt32.size)

/-- The next number of a header and the place after it. -/
def headerNumber? (data : ByteArray) (place : Nat) : Option (Nat × Nat) := do
  let (word, place) ← word? data (data.size + 1) place false []
  return (← number? word, place)

/-- The header of kinds 1 to 6. -/
def wordHeader? (data : ByteArray) (kind : Nat) : Option Header := do
  let (width, place) ← headerNumber? data 2
  let (height, place) ← headerNumber? data place
  let asWords := decide (kind ≤ 3)
  let model : ColorModel := if kind % 3 = 0 then .rgb else .gray
  if kind % 3 = 1 then return ⟨model, width, height, 1, true, asWords, place⟩
  let (greatest, place) ← headerNumber? data place
  if greatest = 0 ∨ 65535 < greatest then none
  return ⟨model, width, height, greatest, false, asWords, place⟩

/-- The place after the end of a line. -/
def lineEnd (data : ByteArray) : Nat → Nat → Nat
  | 0, place => place
  | fuel + 1, place =>
    match data[place]? with
    | none => place
    | some b => if b == 10 then place + 1 else lineEnd data fuel (place + 1)

/-- The named lines of a header of kind 7 and the place after them. -/
def namedLines? (data : ByteArray) : Nat → Nat → Option (List (String × String) × Nat)
  | 0, _ => none
  | fuel + 1, place => do
    let stop := lineEnd data data.size place
    if stop = place then none
    let line ← String.fromUTF8? (data.extract place stop)
    let cs := line.toList
    if cs.head? == some '#' then namedLines? data fuel stop
    else
      let body := cs.dropWhile Char.isWhitespace
      let name := body.takeWhile (!Char.isWhitespace ·)
      let rest := ((body.drop name.length).dropWhile Char.isWhitespace).reverse.dropWhile Char.isWhitespace
      if name == "ENDHDR".toList then return ([], stop)
      let (lines, place) ← namedLines? data fuel stop
      return ((String.ofList name, String.ofList rest.reverse) :: lines, place)

/-- The channels that a name of samples stands for, whether they are bits, and how many a pixel has. -/
def tuple? : String → Option (ColorModel × Bool)
  | "BLACKANDWHITE" => some (.gray, true)
  | "BLACKANDWHITE_ALPHA" => some (.grayAlpha, true)
  | "GRAYSCALE" => some (.gray, false)
  | "GRAYSCALE_ALPHA" => some (.grayAlpha, false)
  | "RGB" => some (.rgb, false)
  | "RGB_ALPHA" => some (.rgba, false)
  | _ => none

/-- The names of the lines of a header of kind 7. -/
def knownLines : List String := ["WIDTH", "HEIGHT", "DEPTH", "MAXVAL", "TUPLTYPE"]

/-- The header of kind 7; every line occurs once. -/
def namedHeader? (data : ByteArray) : Option Header := do
  if data[2]? ≠ some 10 then none
  let (lines, start) ← namedLines? data (data.size + 1) 3
  let line? (name : String) : Option String :=
    match lines.filter (·.1 == name) with
    | [(_, text)] => some text
    | _ => none
  if lines.any fun (name, _) => !(knownLines.contains name) then none
  let width ← number? (← line? "WIDTH")
  let height ← number? (← line? "HEIGHT")
  let depth ← number? (← line? "DEPTH")
  let greatest ← number? (← line? "MAXVAL")
  let (model, bits) ← tuple? (← line? "TUPLTYPE")
  if depth ≠ model.channels ∨ greatest = 0 ∨ 65535 < greatest ∨ (bits ∧ greatest ≠ 1) then none
  return ⟨model, width, height, greatest, false, false, start⟩

/-- The words between the blanks of a text. -/
def words (bytes : List UInt8) : List (List Char) :=
  let runs := bytes.foldr (fun b runs =>
    if isSpace b then [] :: runs
    else match runs with
      | run :: rest => (Char.ofNat b.toNat :: run) :: rest
      | [] => [[Char.ofNat b.toNat]]) [[]]
  runs.filter (!·.isEmpty)

/-- The first samples written out as words from a place on. -/
def wordSamples? (data : ByteArray) (place count : Nat) : Option (Array Nat) := do
  let samples := (words (data.extract place data.size).data.toList).take count
  if samples.length < count then none
  return (← samples.mapM fun word => number? (String.ofList word)).toArray

/-- The samples written as the digits 0 and 1, one means black, from a place on. -/
def digitSamples? (data : ByteArray) (place count : Nat) : Option (Array Nat) :=
  let digits := (data.extract place data.size).data.filter (!isSpace ·)
  if count ≤ digits.size ∧ (digits.extract 0 count).all (fun b => b == 48 || b == 49) then
    some ((digits.extract 0 count).map fun b => if b == 48 then 1 else 0)
  else none

/-- The samples packed into bits row by row, one means black. -/
def bitSamples? (data : ByteArray) (place width height : Nat) : Option (Array Nat) :=
  let perRow := (width + 7) / 8
  if data.size < place + perRow * height then none
  else some <| Array.ofFn fun i : Fin (width * height) =>
    let x := i.val % width
    let b := (data[place + i.val / width * perRow + x / 8]?.getD 0).toNat
    1 - b >>> (7 - x % 8) % 2

/-- The samples in one byte or two, high byte first. -/
def byteSamples? (data : ByteArray) (place count : Nat) (deep : Bool) : Option (Array Nat) :=
  let width := if deep then 2 else 1
  let byte (i : Nat) : Nat := (data[place + i]?.getD 0).toNat
  if data.size < place + width * count then none
  else some <| Array.ofFn fun i : Fin count =>
    if deep then byte (2 * i.val) * 256 + byte (2 * i.val + 1) else byte i.val

/-- A sample spread over the full range of one byte or two. -/
def spread (greatest : Nat) (deep : Bool) (v : Nat) : Nat :=
  let full := if deep then 65535 else 255
  if greatest = full then v
  else
    let scaled := (Float32.ofNat v * (Float32.ofNat full / Float32.ofNat greatest)).round
    if deep then scaled.toUInt16.toNat else scaled.toUInt8.toNat

/-- The bitmap of a file. -/
def decode? (data : ByteArray) : Option Bitmap := do
  if data[0]? ≠ some 80 then none
  let kind := (← data[1]?).toNat - 48
  let h ← if 1 ≤ kind ∧ kind ≤ 6 then wordHeader? data kind else if kind = 7 then namedHeader? data else none
  let samples ←
    if h.bilevel then
      if h.asWords then digitSamples? data h.start h.count else bitSamples? data h.start h.width h.height
    else if h.asWords then
      (wordSamples? data h.start h.count).filter (·.all (· ≤ h.greatest))
    else byteSamples? data h.start h.count h.deep
  return ⟨h.model, h.deep, h.width, h.height, samples.map (spread h.greatest h.deep)⟩

/-- The name of samples with the given channels. -/
def tupleName : ColorModel → String
  | .gray => "GRAYSCALE"
  | .grayAlpha => "GRAYSCALE_ALPHA"
  | .rgb => "RGB"
  | .rgba => "RGB_ALPHA"

/-- A bitmap as a file of kind 7. -/
def encode (b : Bitmap) : ByteArray :=
  let line (name : String) (n : Nat) : String := name ++ " " ++ toString n ++ "\n"
  let header := "P7\n" ++ line "WIDTH" b.width ++ line "HEIGHT" b.height ++ line "DEPTH" b.model.channels ++
    line "MAXVAL" (if b.deep then 65535 else 255) ++ "TUPLTYPE " ++ tupleName b.model ++ "\nENDHDR\n"
  b.samples.foldl (fun out v =>
    if b.deep then (out.push (UInt8.ofNat (v / 256))).push (UInt8.ofNat v) else out.push (UInt8.ofNat v))
    header.toUTF8

end ScannedPage.Pnm
