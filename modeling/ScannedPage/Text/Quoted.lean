import ScannedPage.Text.Visible

/-!
# Texts in messages

A text in a message stands in double quotes, with every character escaped that does not show. Bytes that
are meant to be text are decoded first; where they are not well formed, a replacement character stands for
the longest part that could have begun a character.
-/

namespace ScannedPage.Text

/-- A code point as an escape in hexadecimal digits. -/
def codeEscape (c : Char) : List Char := ['\\', 'u', '\x7b'] ++ Nat.toDigits 16 c.toNat ++ ['\x7d']

/-- A character between double quotes. -/
def encodeChar (c : Char) : List Char :=
  match c with
  | '\x00' => ['\\', '0']
  | '\t' => ['\\', 't']
  | '\r' => ['\\', 'r']
  | '\n' => ['\\', 'n']
  | '\\' => ['\\', '\\']
  | '"' => ['\\', '"']
  | c => if isVisible c then [c] else codeEscape c

/-- A text in double quotes. -/
def quoted (cs : List Char) : String := String.ofList (['"'] ++ cs.flatMap encodeChar ++ ['"'])

/-- The byte continues a character. -/
def isTail (b : Nat) : Bool := decide (0x80 ≤ b ∧ b < 0xC0)

/-- The bytes that may follow the first byte of a character of three or four bytes. -/
def secondRange (first : Nat) : Nat × Nat :=
  match first with
  | 0xE0 => (0xA0, 0xBF)
  | 0xED => (0x80, 0x9F)
  | 0xF0 => (0x90, 0xBF)
  | 0xF4 => (0x80, 0x8F)
  | _ => (0x80, 0xBF)

/-- The number of bytes of the character that begins with a byte; no character begins with some. -/
def charWidth (first : Nat) : Nat :=
  if first < 0x80 then 1
  else if 0xC2 ≤ first ∧ first < 0xE0 then 2
  else if 0xE0 ≤ first ∧ first < 0xF0 then 3
  else if 0xF0 ≤ first ∧ first < 0xF5 then 4
  else 0

/-- The number of bytes after the first that may belong to its character. -/
def tailLength (first : Nat) (rest : List Nat) : Nat :=
  match rest.take (charWidth first - 1) with
  | [] => 0
  | second :: more =>
    let (low, high) := secondRange first
    if low ≤ second ∧ second ≤ high then 1 + (more.takeWhile isTail).length else 0

/-- The code point of a character of some bytes. -/
def codePoint (first : Nat) (tail : List Nat) : Nat :=
  let head := match charWidth first with
    | 2 => first - 0xC0
    | 3 => first - 0xE0
    | 4 => first - 0xF0
    | _ => first
  tail.foldl (fun n b => n * 64 + (b - 0x80)) head

/-- The characters of bytes, with the fuel for one more. -/
def decodeBytes : Nat → List Nat → List Char
  | 0, _ => []
  | _ + 1, [] => []
  | fuel + 1, first :: rest =>
    let n := tailLength first rest
    let c := if n + 1 = charWidth first then Char.ofNat (codePoint first (rest.take n)) else '\ufffd'
    c :: decodeBytes fuel (rest.drop n)

/-- The characters of bytes. -/
def ofBytes (bytes : List Nat) : List Char := decodeBytes bytes.length bytes

end ScannedPage.Text
