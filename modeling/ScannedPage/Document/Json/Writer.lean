import ScannedPage.Decimal.Shortest
import ScannedPage.Document.Value

/-!
# Writing JSON

A document is written with one field or item per line, indented by two blanks a level; empty lists and
records stay on their line. A floating-point number keeps a fraction: it is positional while its point
lies at most five places before its digits and sixteen after their start, and has an exponent with its
sign otherwise. Numbers that are not finite are null.
-/

namespace ScannedPage.Json

/-- A digit of a lowercase hexadecimal number. -/
def hexChar (n : Nat) : Char := if n < 10 then Char.ofNat (n + 48) else Char.ofNat (n + 87)

/-- A character inside a string. -/
def encodeChar (c : Char) : List Char :=
  match c with
  | '"' => ['\\', '"']
  | '\\' => ['\\', '\\']
  | '\n' => ['\\', 'n']
  | '\r' => ['\\', 'r']
  | '\t' => ['\\', 't']
  | '\x08' => ['\\', 'b']
  | '\x0c' => ['\\', 'f']
  | c =>
    if c.toNat < 0x20 then ['\\', 'u', '0', '0', hexChar (c.toNat / 16), hexChar (c.toNat % 16)] else [c]

/-- A string in its quotes. -/
def quote (s : String) : String := String.ofList (['"'] ++ s.toList.flatMap encodeChar ++ ['"'])

/-- The exponent of ten of the first digit, with its sign. -/
def exponentText (n : Int) : List Char :=
  'e' :: (if n < 0 then (toString n).toList else '+' :: (toString n).toList)

/-- The digits of a number with a fraction, or with an exponent when they lie too far from the point. -/
def digitsText (d : Decimal.Digits) : List Char :=
  if -5 < d.point ∧ d.point ≤ 16 then
    if d.digits.length ≤ d.point.toNat then d.positional ++ ['.', '0'] else d.positional
  else
    let fraction := match d.digits.drop 1 with
      | [] => []
      | ds => '.' :: ds
    d.digits.take 1 ++ fraction ++ exponentText (d.point - 1)

/-- A floating-point number. -/
def floatText (x : Float) : String :=
  match Decimal.parts x with
  | .nan | .infinite _ => "null"
  | .zero negative => String.ofList (Decimal.signed negative ['0', '.', '0'])
  | .finite negative d => String.ofList (Decimal.signed negative (digitsText d))

/-- A line break and the indentation of a level. -/
def newline (level : Nat) : String := String.ofList ('\n' :: List.replicate (2 * level) ' ')

/-- Parts between brackets, one per line, inside a level. -/
def block (level : Nat) (before after : String) (parts : List String) : String :=
  match parts with
  | [] => before ++ after
  | _ =>
    let start := newline (level + 1)
    before ++ start ++ ("," ++ start).intercalate parts ++ newline level ++ after

mutual

/-- The text of a value inside a level. -/
def valueText (level : Nat) : Value → String
  | .null => "null"
  | .bool b => if b then "true" else "false"
  | .int i => toString i
  | .float x => floatText x
  | .text s => quote s
  | .list items => block level "[" "]" (itemTexts (level + 1) items)
  | .record fields => block level "\x7b" "\x7d" (fieldTexts (level + 1) fields)
  | .plain spelling => quote spelling
  | .tagged _ value => valueText level value
  | .unreadable => "null"

/-- The texts of the items of a list. -/
def itemTexts (level : Nat) : List Value → List String
  | [] => []
  | v :: rest => valueText level v :: itemTexts level rest

/-- The texts of the fields of a record. -/
def fieldTexts (level : Nat) : List (Value × Value) → List String
  | [] => []
  | (name, v) :: rest => (valueText level name ++ ": " ++ valueText level v) :: fieldTexts level rest

end

/-- The text of a document. -/
def write (v : Value) : String := valueText 0 v

end ScannedPage.Json
