import ScannedPage.Bitmap.Basic
import ScannedPage.Bitmap.Deflate

/-!
# PNG files

A file is a signature and a row of chunks, each with its length, kind and checksum. The samples are
compressed row by row, each row after a byte that names the prediction which was subtracted from it. Files
are written without prediction. On reading, samples of less than 8 bits are spread over the full range,
palette colours are looked up, and the seven passes of an interlaced picture are put together.
-/

namespace ScannedPage.Png

open Deflate

/-- The first bytes of every file. -/
def signature : List UInt8 := [0x89, 0x50, 0x4e, 0x47, 0x0d, 0x0a, 0x1a, 0x0a]

/-- One bit of a checksum. -/
def crcBit (crc : UInt32) : UInt32 := if crc &&& 1 = 1 then (crc >>> 1) ^^^ 0xedb88320 else crc >>> 1

/-- One byte of a checksum. -/
def crcByte (crc : UInt32) (b : UInt8) : UInt32 := Nat.repeat crcBit 8 (crc ^^^ b.toUInt32)

/-- The checksum of a chunk's kind and data. -/
def crc (data : ByteArray) : Nat := ((data.foldl crcByte 0xffffffff) ^^^ 0xffffffff).toNat

/-- A part of a file. -/
structure Chunk where
  kind : String
  data : ByteArray

/-- The bytes of a chunk. -/
def Chunk.bytes (c : Chunk) : List UInt8 :=
  let body := c.kind.toUTF8 ++ c.data
  bigEndian 4 c.data.size ++ body.data.toList ++ bigEndian 4 (crc body)

/-- The layout of the samples in a file. -/
structure Header where
  width : Nat
  height : Nat
  /-- The number of bits of a sample. -/
  depth : Nat
  /-- 0 gray, 2 colour, 3 palette, 4 gray with opacity, 6 colour with opacity. -/
  colorType : Nat
  interlaced : Bool

namespace Header

/-- The number of samples of a pixel. -/
def channels (h : Header) : Nat :=
  match h.colorType with
  | 2 => 3
  | 4 => 2
  | 6 => 4
  | _ => 1

/-- The number of bytes of a row of pixels. -/
def rowBytes (h : Header) (width : Nat) : Nat := (width * h.channels * h.depth + 7) / 8

/-- The distance between the bytes that prediction compares. -/
def stride (h : Header) : Nat := max 1 (h.channels * h.depth / 8)

/-- The combinations that exist. -/
def valid (h : Header) : Bool :=
  decide (0 < h.width ∧ 0 < h.height ∧ h.width < 2147483648 ∧ h.height < 2147483648) &&
    match h.colorType with
    | 0 => [1, 2, 4, 8, 16].contains h.depth
    | 3 => [1, 2, 4, 8].contains h.depth
    | 2 | 4 | 6 => [8, 16].contains h.depth
    | _ => false

end Header

/-- The number of a color model in files. -/
def colorTypeOf : ColorModel → Nat
  | .gray => 0
  | .grayAlpha => 4
  | .rgb => 2
  | .rgba => 6

/-- The rows of a bitmap as they are compressed. -/
def rawRows (b : Bitmap) : ByteArray :=
  let perRow := b.width * b.model.channels
  let width := if b.deep then 2 else 1
  Nat.fold b.height (fun y _ out =>
    Nat.fold perRow (fun i _ out =>
      (bigEndian width (b.samples.getD (y * perRow + i) 0)).foldl ByteArray.push out) (out.push 0)) .empty

/-- A bitmap as a file. -/
def encode (b : Bitmap) : ByteArray :=
  let header := bigEndian 4 b.width ++ bigEndian 4 b.height ++
    [if b.deep then 16 else 8, UInt8.ofNat (colorTypeOf b.model), 0, 0, 0]
  let chunks : List Chunk :=
    [⟨"IHDR", ⟨header.toArray⟩⟩, ⟨"IDAT", compress (rawRows b)⟩, ⟨"IEND", .empty⟩]
  ⟨(signature ++ chunks.flatMap Chunk.bytes).toArray⟩

/-- The chunks from a place on, up to the one that ends the file. The checksum of a chunk counts unless its
kind begins with a small letter, which marks what may be skipped. -/
def chunks? (data : ByteArray) : Nat → Nat → Option (List Chunk)
  | 0, _ => none
  | fuel + 1, place => do
    let size := readBigEndian data place 4
    let stop := place + 8 + size
    if data.size < stop + 4 then none
    let kind ← String.fromUTF8? (data.extract (place + 4) (place + 8))
    let critical := !kind.toList.head?.any Char.isLower
    if critical && readBigEndian data stop 4 != crc (data.extract (place + 4) stop) then none
    let chunk : Chunk := ⟨kind, data.extract (place + 8) stop⟩
    if kind == "IEND" then return [chunk] else return chunk :: (← chunks? data fuel (stop + 4))

/-- The header of a file. -/
def header? (c : Chunk) : Option Header :=
  let byte (i : Nat) := readBigEndian c.data i 1
  let h : Header := ⟨readBigEndian c.data 0 4, readBigEndian c.data 4 4, byte 8, byte 9, byte 12 == 1⟩
  let known := byte 10 == 0 && byte 11 == 0 && decide (byte 12 ≤ 1)
  if c.kind == "IHDR" && c.data.size == 13 && h.valid && known then some h else none

/-- The one of three neighbours that is nearest to left + above - diagonal; the first of equals wins. -/
def paeth (left above diagonal : Nat) : Nat :=
  let estimate : Int := left + above - diagonal
  let away (n : Nat) : Nat := (estimate - n).natAbs
  if away left ≤ away above ∧ away left ≤ away diagonal then left
  else if away above ≤ away diagonal then above
  else diagonal

/-- What was subtracted from a byte. -/
def predicted? (kind left above diagonal : Nat) : Option Nat :=
  match kind with
  | 0 => some 0
  | 1 => some left
  | 2 => some above
  | 3 => some ((left + above) / 2)
  | 4 => some (paeth left above diagonal)
  | _ => none

/-- A row without its prediction, given the one above. -/
def restoreRow? (stride kind : Nat) (above row : ByteArray) : Option ByteArray :=
  Nat.fold row.size (fun i _ out? => do
    let out ← out?
    let at' (bytes : ByteArray) (i : Nat) : Nat := (bytes[i]?.getD 0).toNat
    let left := if i < stride then 0 else at' out (i - stride)
    let diagonal := if i < stride then 0 else at' above (i - stride)
    return out.push (UInt8.ofNat (at' row i + (← predicted? kind left (at' above i) diagonal)))) (some .empty)

/-- The rows of one pass from a place on. -/
def passRows? (h : Header) (data : ByteArray) (width : Nat) : Nat → Nat → ByteArray → Option (List ByteArray)
  | 0, _, _ => some []
  | n + 1, place, above => do
    let size := h.rowBytes width
    let kind ← data[place]?
    if data.size < place + 1 + size then none
    let row ← restoreRow? h.stride kind.toNat above (data.extract (place + 1) (place + 1 + size))
    return row :: (← passRows? h data width n (place + 1 + size) row)

/-- A sample of a row, by its place in the row. -/
def sampleAt (h : Header) (row : ByteArray) (i : Nat) : Nat :=
  if h.depth = 16 then readBigEndian row (2 * i) 2
  else
    let bit := i * h.depth
    (row[bit / 8]?.getD 0).toNat >>> (8 - h.depth - bit % 8) % Nat.pow 2 h.depth

/-- The part of a picture that a pass carries: every so manyth column and row from some one on. -/
structure Pass where
  x : Nat
  y : Nat
  dx : Nat
  dy : Nat

/-- The passes of an interlaced picture. -/
def interlacedPasses : List Pass :=
  [⟨0, 0, 8, 8⟩, ⟨4, 0, 8, 8⟩, ⟨0, 4, 4, 8⟩, ⟨2, 0, 4, 4⟩, ⟨0, 2, 2, 4⟩, ⟨1, 0, 2, 2⟩, ⟨0, 1, 1, 2⟩]

/-- The number of columns or rows of a pass. -/
def passExtent (side start step : Nat) : Nat := (side + step - 1 - start) / step

/-- A grid of samples with the rows of a pass filled in. -/
def place (h : Header) (p : Pass) (width : Nat) (rows : List ByteArray) (samples : Array Nat) : Array Nat :=
  rows.zipIdx.foldl (fun samples (row, j) =>
    Nat.fold (width * h.channels) (fun i _ samples =>
      let x := p.x + i / h.channels * p.dx
      let y := p.y + j * p.dy
      samples.setIfInBounds ((y * h.width + x) * h.channels + i % h.channels) (sampleAt h row i)) samples) samples

/-- The samples of all passes from a place on. -/
def passes? (h : Header) (data : ByteArray) : List Pass → Nat → Array Nat → Option (Array Nat)
  | [], _, samples => some samples
  | p :: rest, start, samples => do
    let width := passExtent h.width p.x p.dx
    let height := passExtent h.height p.y p.dy
    if width = 0 ∨ height = 0 then passes? h data rest start samples
    else
      let rows ← passRows? h data width height start ⟨Array.replicate (h.rowBytes width) 0⟩
      passes? h data rest (start + height * (h.rowBytes width + 1)) (place h p width rows samples)

/-- The colours of the samples of a palette picture; each has to be in the palette. -/
def lookUp? (palette : ByteArray) (samples : Array Nat) : Option (Array Nat) :=
  samples.foldl (fun out? v => do
    let out ← out?
    if palette.size < 3 * v + 3 then none
    return out ++ #[0, 1, 2].map fun i => (palette[3 * v + i]?.getD 0).toNat) (some #[])

/-- The bitmap of the samples under a header. -/
def bitmap? (h : Header) (palette : Option ByteArray) (samples : Array Nat) : Option Bitmap :=
  let deep := decide (h.depth = 16)
  let make (model : ColorModel) (samples : Array Nat) : Bitmap := ⟨model, deep, h.width, h.height, samples⟩
  match h.colorType with
  | 2 => some (make .rgb samples)
  | 3 => do return make .rgb (← lookUp? (← palette) samples)
  | 4 => some (make .grayAlpha samples)
  | 6 => some (make .rgba samples)
  | _ => some (make .gray (if h.depth < 8 then samples.map (· * (255 / (Nat.pow 2 h.depth - 1))) else samples))

/-- The bitmap of a file. -/
def decode? (file : ByteArray) : Option Bitmap := do
  if (file.extract 0 8).data.toList ≠ signature then none
  match ← chunks? file (file.size + 1) 8 with
  | first :: rest =>
    let h ← header? first
    let palette := (rest.find? (·.kind == "PLTE")).map (·.data)
    let stream := (rest.filter (·.kind == "IDAT")).foldl (fun all c => all ++ c.data) ByteArray.empty
    let data ← decompress? stream
    let passes := if h.interlaced then interlacedPasses else [⟨0, 0, 1, 1⟩]
    let samples ← passes? h data passes 0 (Array.replicate (h.width * h.height * h.channels) 0)
    bitmap? h palette samples
  | [] => none

end ScannedPage.Png
