/-!
# Compressed streams

Data is written as blocks of stored bytes, and read back whether its blocks are stored or coded. A coded
block is a row of code words, of which the shorter ones come first in the order of words; a word stands
for a byte, for the end of the block, or for a stretch of earlier data to be repeated. Bits fill a byte
from the low end. A stream has two bytes in front and a checksum of four bytes behind.
-/

namespace ScannedPage.Deflate

/-- A number in a fixed number of bytes, high byte first. -/
def bigEndian : Nat → Nat → List UInt8
  | 0, _ => []
  | width + 1, n => bigEndian width (n / 256) ++ [UInt8.ofNat n]

/-- The number of the bytes at a place, high byte first; bytes beyond the end count as zero. -/
def readBigEndian (data : ByteArray) (place : Nat) : Nat → Nat
  | 0 => 0
  | width + 1 => readBigEndian data place width * 256 + (data[place + width]?.getD 0).toNat

/-- The sums behind the checksum of a stream, after one more byte. -/
def adlerStep (s : Nat × Nat) (b : UInt8) : Nat × Nat :=
  let a := (s.1 + b.toNat) % 65521
  (a, (s.2 + a) % 65521)

/-- The checksum of a stream. -/
def adler (data : ByteArray) : Nat :=
  let (a, b) := data.foldl adlerStep (1, 0)
  b * 65536 + a

/-- The greatest number of stored bytes in a block. -/
def blockLimit : Nat := 65535

/-- The data from a place on as stored blocks, of which the last one is marked. -/
def storedBlocks (data : ByteArray) (place : Nat) : Nat → ByteArray → ByteArray
  | 0, out => out
  | fuel + 1, out =>
    let size := min blockLimit (data.size - place)
    let last := decide (data.size ≤ place + size)
    let head : List Nat := [if last then 1 else 0, size % 256, size / 256, 255 - size % 256, 255 - size / 256]
    let out := head.foldl (fun out n => out.push (UInt8.ofNat n)) out ++ data.extract place (place + size)
    if last then out else storedBlocks data (place + size) fuel out

/-- The data as a stream of stored blocks. -/
def compress (data : ByteArray) : ByteArray :=
  let out := storedBlocks data 0 (data.size / blockLimit + 1) (ByteArray.mk #[0x78, 0x01])
  (bigEndian 4 (adler data)).foldl ByteArray.push out

/-- Where reading has come: the number of bits before. -/
structure BitCursor where
  data : ByteArray
  place : Nat

namespace BitCursor

/-- The next bit. -/
@[inline]
def bit? (c : BitCursor) : Option (Nat × BitCursor) :=
  match c.data[c.place / 8]? with
  | some b => some (b.toNat >>> (c.place % 8) % 2, { c with place := c.place + 1 })
  | none => none

/-- The number of the next bits, the low one first. -/
def bits? (c : BitCursor) : Nat → Option (Nat × BitCursor)
  | 0 => some (0, c)
  | n + 1 => do
    let (low, c) ← c.bit?
    let (high, c) ← c.bits? n
    return (low + 2 * high, c)

/-- At the next full byte. -/
def align (c : BitCursor) : BitCursor := { c with place := (c.place + 7) / 8 * 8 }

end BitCursor

/-- Code words: how many there are of each length, and the symbols in the order of their words. -/
structure Code where
  counts : Array Nat
  symbols : Array Nat

/-- The greatest length of a code word. -/
def maxLength : Nat := 15

/-- The code whose words have the given lengths, by symbol; a length of zero means no word. -/
def Code.ofLengths (lengths : List Nat) : Code :=
  let symbolsOf (n : Nat) := lengths.zipIdx.filterMap fun (length, symbol) =>
    if length = n then some symbol else none
  let byLength := (List.range' 1 maxLength).map symbolsOf
  ⟨(0 :: byLength.map List.length).toArray, byLength.flatten.toArray⟩

/-- The symbol of the next code word. After some bits their number as a word is known, and so are the first
word of that length and the place of its symbol. -/
def Code.symbol? (code : Code) (c : BitCursor) : Nat → (length word first place : Nat) → Option (Nat × BitCursor)
  | 0, _, _, _, _ => none
  | fuel + 1, length, word, first, place => do
    let (bit, c) ← c.bit?
    let word := word + bit
    let count := code.counts.getD length 0
    if word < first + count then return (← code.symbols[place + (word - first)]?, c)
    else code.symbol? c fuel (length + 1) (2 * word) (2 * (first + count)) (place + count)

/-- The symbol of the next code word. -/
def Code.next? (code : Code) (c : BitCursor) : Option (Nat × BitCursor) := code.symbol? c maxLength 1 0 0 0

/-- The shortest stretch and the number of further bits, by symbol from 257 on. -/
def stretchTable : Array (Nat × Nat) :=
  #[(3, 0), (4, 0), (5, 0), (6, 0), (7, 0), (8, 0), (9, 0), (10, 0), (11, 1), (13, 1), (15, 1), (17, 1), (19, 2),
    (23, 2), (27, 2), (31, 2), (35, 3), (43, 3), (51, 3), (59, 3), (67, 4), (83, 4), (99, 4), (115, 4), (131, 5),
    (163, 5), (195, 5), (227, 5), (258, 0)]

/-- The shortest distance and the number of further bits, by symbol. -/
def distanceTable : Array (Nat × Nat) :=
  #[(1, 0), (2, 0), (3, 0), (4, 0), (5, 1), (7, 1), (9, 2), (13, 2), (17, 3), (25, 3), (33, 4), (49, 4), (65, 5),
    (97, 5), (129, 6), (193, 6), (257, 7), (385, 7), (513, 8), (769, 8), (1025, 9), (1537, 9), (2049, 10),
    (3073, 10), (4097, 11), (6145, 11), (8193, 12), (12289, 12), (16385, 13), (24577, 13)]

/-- A length or distance of a table with its further bits. -/
def entry? (table : Array (Nat × Nat)) (symbol : Nat) (c : BitCursor) : Option (Nat × BitCursor) := do
  let (least, extra) ← table[symbol]?
  let (more, c) ← c.bits? extra
  return (least + more, c)

/-- The data followed by a stretch of itself that begins at a distance from its end. -/
def repeatStretch (distance : Nat) : Nat → ByteArray → ByteArray
  | 0, out => out
  | n + 1, out => repeatStretch distance n (out.push (out[out.size - distance]?.getD 0))

/-- The data of a coded block from here on, with the fuel for its words. -/
def codedBlock? (words distances : Code) : Nat → BitCursor → ByteArray → Option (ByteArray × BitCursor)
  | 0, _, _ => none
  | fuel + 1, c, out => do
    let (symbol, c) ← words.next? c
    if symbol < 256 then codedBlock? words distances fuel c (out.push (UInt8.ofNat symbol))
    else if symbol = 256 then return (out, c)
    else
      let (length, c) ← entry? stretchTable (symbol - 257) c
      let (symbol, c) ← distances.next? c
      let (distance, c) ← entry? distanceTable symbol c
      if out.size < distance then none
      codedBlock? words distances fuel c (repeatStretch distance length out)

/-- The data of a stored block. -/
def storedBlock? (c : BitCursor) (out : ByteArray) : Option (ByteArray × BitCursor) := do
  let (size, c) ← c.align.bits? 16
  let (check, c) ← c.bits? 16
  let start := c.place / 8
  if size + check ≠ 65535 ∨ c.data.size < start + size then none
  return (out ++ c.data.extract start (start + size), { c with place := (start + size) * 8 })

/-- The lengths of the words of the code that every block may use. -/
def fixedLengths : List Nat :=
  List.replicate 144 8 ++ List.replicate 112 9 ++ List.replicate 24 7 ++ List.replicate 8 8

/-- The order in which the lengths of the code for lengths come. -/
def lengthOrder : List Nat := [16, 17, 18, 0, 8, 7, 9, 6, 10, 5, 11, 4, 12, 3, 13, 2, 14, 1, 15]

/-- The lengths of the code for lengths, in their order of coming. -/
def shortLengths? : Nat → BitCursor → Option (List Nat × BitCursor)
  | 0, c => some ([], c)
  | n + 1, c => do
    let (length, c) ← c.bits? 3
    let (rest, c) ← shortLengths? n c
    return (length :: rest, c)

/-- Lengths of words up to a number of them, the last one first; some symbols repeat a length. -/
def codeLengths? (code : Code) (total : Nat) : Nat → List Nat → BitCursor → Option (List Nat × BitCursor)
  | 0, _, _ => none
  | fuel + 1, done, c =>
    if done.length = total then some (done, c)
    else if total < done.length then none
    else do
      let (symbol, c) ← code.next? c
      if symbol < 16 then codeLengths? code total fuel (symbol :: done) c
      else
        let (bits, least) := if symbol = 16 then (2, 3) else if symbol = 17 then (3, 3) else (7, 11)
        let (more, c) ← c.bits? bits
        let length ← if symbol = 16 then done.head? else some 0
        codeLengths? code total fuel (List.replicate (least + more) length ++ done) c

/-- The two codes that a block describes at its front. -/
def ownCodes? (c : BitCursor) : Option (Code × Code × BitCursor) := do
  let (words, c) ← c.bits? 5
  let (distances, c) ← c.bits? 5
  let (short, c) ← c.bits? 4
  let (lengths, c) ← shortLengths? (short + 4) c
  let pairs := lengthOrder.zip lengths
  let code := Code.ofLengths ((List.range 19).map fun symbol => (pairs.lookup symbol).getD 0)
  let (all, c) ← codeLengths? code (words + distances + 258) (words + distances + 259) [] c
  return (.ofLengths (all.reverse.take (words + 257)), .ofLengths (all.reverse.drop (words + 257)), c)

/-- The data of all blocks from here on. -/
def blocks? : Nat → BitCursor → ByteArray → Option ByteArray
  | 0, _, _ => none
  | fuel + 1, c, out => do
    let (last, c) ← c.bit?
    let (kind, c) ← c.bits? 2
    let (out, c) ← match kind with
      | 0 => storedBlock? c out
      | 1 => codedBlock? (.ofLengths fixedLengths) (.ofLengths (List.replicate 30 5)) (8 * c.data.size + 1) c out
      | 2 => do
        let (words, distances, c) ← ownCodes? c
        codedBlock? words distances (8 * c.data.size + 1) c out
      | _ => none
    if last = 1 then return out else blocks? fuel c out

/-- The data of a stream. -/
def decompress? (stream : ByteArray) : Option ByteArray := do
  let method ← stream[0]?
  let flags ← stream[1]?
  if method.toNat % 16 ≠ 8 ∨ (method.toNat * 256 + flags.toNat) % 31 ≠ 0 ∨ flags.toNat / 32 % 2 = 1 then none
  blocks? (8 * stream.size + 1) ⟨stream, 16⟩ .empty

end ScannedPage.Deflate
