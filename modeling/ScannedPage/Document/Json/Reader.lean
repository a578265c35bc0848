import ScannedPage.Decimal.Reading
import ScannedPage.Document.Value

/-!
# Reading JSON

The reader takes the value at the front of a text and gives the rest. A whole number that fits 64 bits
stays whole, any other number is a floating-point number: its digits are gathered into a whole number
of 64 bits, further digits only count towards the power of ten, and the result is taken stepwise. A
number beyond all floating-point numbers and half of a surrogate pair are well formed but unreadable.
-/

namespace ScannedPage.Json

/-- The blanks between tokens. -/
def isBlank (c : Char) : Bool := c == ' ' || c == '\n' || c == '\t' || c == '\r'

/-- The text after the blanks at its front. -/
def skipBlanks (cs : List Char) : List Char := cs.dropWhile isBlank

/-- The value of a decimal digit. -/
def digit? (c : Char) : Option Nat := if c.isDigit then some (c.toNat - '0'.toNat) else none

/-- The value of a hexadecimal digit. -/
def hexDigit? (c : Char) : Option Nat :=
  if c.isDigit then some (c.toNat - '0'.toNat)
  else if 'a' ≤ c ∧ c ≤ 'f' then some (c.toNat - 'a'.toNat + 10)
  else if 'A' ≤ c ∧ c ≤ 'F' then some (c.toNat - 'A'.toNat + 10)
  else none

/-- The value of four hexadecimal digits. -/
def hexUnit? (a b c d : Char) : Option Nat := do
  return (((← hexDigit? a) * 16 + (← hexDigit? b)) * 16 + (← hexDigit? c)) * 16 + (← hexDigit? d)

/-- The character of a single-letter escape. -/
def escape? : Char → Option Char
  | '"' => some '"'
  | '\\' => some '\\'
  | '/' => some '/'
  | 'b' => some '\x08'
  | 'f' => some '\x0c'
  | 'n' => some '\n'
  | 'r' => some '\r'
  | 't' => some '\t'
  | _ => none

/-- The character of the two halves of a surrogate pair. -/
def pairChar (high low : Nat) : Char := Char.ofNat (0x10000 + (high - 0xD800) * 0x400 + (low - 0xDC00))

/-- What a string holds so far. -/
inductive StringState
  /-- Whole characters, the last one first. -/
  | whole (done : List Char)
  /-- Whole characters and then the first half of a pair. -/
  | half (done : List Char) (high : Nat)
  /-- Some half of a pair without the other. -/
  | broken

namespace StringState

/-- One more character. -/
def add (c : Char) : StringState → StringState
  | whole done => whole (c :: done)
  | half _ _ => broken
  | broken => broken

/-- One more unit of sixteen bits, written as an escape. -/
def addUnit (unit : Nat) (s : StringState) : StringState :=
  if 0xDC00 ≤ unit ∧ unit < 0xE000 then
    match s with
    | half done high => whole (pairChar high unit :: done)
    | _ => broken
  else if 0xD800 ≤ unit ∧ unit < 0xDC00 then
    match s with
    | whole done => half done unit
    | _ => broken
  else s.add (Char.ofNat unit)

/-- The text, if it is whole. -/
def text? : StringState → Option String
  | whole done => some (String.ofList done.reverse)
  | _ => none

end StringState

/-- The rest of a string after its opening quote: its characters, unless one is half of a pair, and the
text after the closing quote. -/
def stringRest? (s : StringState) : List Char → Option (Option String × List Char)
  | [] => none
  | '"' :: rest => some (s.text?, rest)
  | '\\' :: 'u' :: a :: b :: c :: d :: rest => do stringRest? (s.addUnit (← hexUnit? a b c d)) rest
  | '\\' :: c :: rest => do stringRest? (s.add (← escape? c)) rest
  | c :: rest => if c.toNat < 0x20 then none else stringRest? (s.add c) rest

/-- Digits gathered into a whole number below `2^64` while they fit; the flag tells whether they still do. -/
structure Significand where
  value : Nat
  fits : Bool
  /-- The digits that came after the number was full. -/
  dropped : Nat

/-- One more digit. -/
def Significand.add (s : Significand) (d : Nat) : Significand :=
  if s.fits && decide (s.value * 10 + d < UInt64.size) then { s with value := s.value * 10 + d }
  else { s with fits := false, dropped := s.dropped + 1 }

/-- The digits at the front, gathered onto those before. -/
def gather (s : Significand) : List Char → Significand × Nat × List Char
  | [] => (s, 0, [])
  | c :: rest =>
    match digit? c with
    | some d =>
      let (s, n, rest) := gather (s.add d) rest
      (s, n + 1, rest)
    | none => (s, 0, c :: rest)

/-- An exponent after its letter: its sign and digits. -/
def exponent? (cs : List Char) : Option (Int × List Char) :=
  let (negative, cs) := match cs with
    | '+' :: rest => (false, rest)
    | '-' :: rest => (true, rest)
    | _ => (false, cs)
  let digits := cs.takeWhile Char.isDigit
  if digits.isEmpty then none
  else
    let n := digits.foldl (fun n c => n * 10 + (c.toNat - '0'.toNat)) 0
    some (if negative then -n else n, cs.dropWhile Char.isDigit)

/-- The value of a number with a fraction or an exponent. -/
def floatValue (negative : Bool) (s : Significand) (exponent : Int) : Value :=
  if s.value = 0 then .float (if negative then -0.0 else 0.0)
  else match Decimal.stepwise negative s.value exponent with
    | some x => .float x
    | none => .unreadable

/-- The value of a number without fraction and exponent. -/
def wholeValue (negative : Bool) (s : Significand) : Value :=
  if !s.fits then floatValue negative s s.dropped
  else if !negative then .int s.value
  else if s.value = 0 ∨ Nat.pow 2 63 < s.value then .float (-s.value.toUInt64.toFloat)
  else .int (-s.value)

/-- A number after its sign. -/
def number? (negative : Bool) (cs : List Char) : Option (Value × List Char) := do
  let start : Significand := ⟨0, true, 0⟩
  let (whole, count, rest) := gather start cs
  if count = 0 then failure
  if cs.head? = some '0' ∧ count ≠ 1 then failure
  match rest with
  | '.' :: more =>
    let (s, places, rest) := gather whole more
    if places = 0 then failure
    let exponent : Int := whole.dropped - (places - (s.dropped - whole.dropped) : Nat)
    match rest with
    | 'e' :: more | 'E' :: more =>
      let (e, rest) ← exponent? more
      return (floatValue negative s (exponent + e), rest)
    | _ => return (floatValue negative s exponent, rest)
  | 'e' :: more | 'E' :: more =>
    let (e, rest) ← exponent? more
    return (floatValue negative whole (whole.dropped + e), rest)
  | _ => return (wholeValue negative whole, rest)

/-- The text after a given word at its front. -/
def word? : List Char → List Char → Option (List Char)
  | [], cs => some cs
  | w :: ws, c :: cs => if w = c then word? ws cs else none
  | _ :: _, [] => none

mutual

/-- The value at the front of a text, with the fuel that its parts may use. -/
def value? : Nat → List Char → Option (Value × List Char)
  | 0, _ => none
  | fuel + 1, cs =>
    match skipBlanks cs with
    | [] => none
    | '{' :: rest =>
      match skipBlanks rest with
      | '}' :: rest => some (.record [], rest)
      | rest => do
        let (fields, rest) ← fields? fuel rest
        match fields with
        | some fields => return (.record fields, rest)
        | none => return (.unreadable, rest)
    | '[' :: rest =>
      match skipBlanks rest with
      | ']' :: rest => some (.list [], rest)
      | rest => do
        let (items, rest) ← items? fuel rest
        return (.list items, rest)
    | '"' :: rest => do
      let (s, rest) ← stringRest? (.whole []) rest
      return ((s.map Value.text).getD .unreadable, rest)
    | '-' :: rest => number? true rest
    | 't' :: rest => (word? ['r', 'u', 'e'] rest).map fun rest => (.bool true, rest)
    | 'f' :: rest => (word? ['a', 'l', 's', 'e'] rest).map fun rest => (.bool false, rest)
    | 'n' :: rest => (word? ['u', 'l', 'l'] rest).map fun rest => (.null, rest)
    | rest => number? false rest

/-- The items of a list from the first on, and the text after its closing bracket. -/
def items? : Nat → List Char → Option (List Value × List Char)
  | 0, _ => none
  | fuel + 1, cs => do
    let (v, rest) ← value? fuel cs
    match skipBlanks rest with
    | ']' :: rest => return ([v], rest)
    | ',' :: rest =>
      let (vs, rest) ← items? fuel rest
      return (v :: vs, rest)
    | _ => none

/-- The fields of a record from the first on, unless a name is unreadable, and the text after its brace. -/
def fields? : Nat → List Char → Option (Option (List (Value × Value)) × List Char)
  | 0, _ => none
  | fuel + 1, cs => do
    let '"' :: rest := skipBlanks cs | none
    let (name, rest) ← stringRest? (.whole []) rest
    let ':' :: rest := skipBlanks rest | none
    let (v, rest) ← value? fuel rest
    let first := name.map fun name => (Value.text name, v)
    match skipBlanks rest with
    | '}' :: rest => return (first.map fun f => [f], rest)
    | ',' :: rest =>
      let (more, rest) ← fields? fuel rest
      return (first.bind fun f => more.map (f :: ·), rest)
    | _ => none

end

/-- The value of a whole text. -/
def read? (s : String) : Option Value := do
  let cs := s.toList
  let (v, rest) ← value? (2 * cs.length + 2) cs
  if (skipBlanks rest).isEmpty then return v else none

end ScannedPage.Json
