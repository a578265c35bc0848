import ScannedPage.Decimal.Reading

/-!
# Scalars without quotes

A format that writes texts without quotes has to tell them from other values by their spelling. The
words of truth and of nothing come in three cases each. A whole number is decimal, or has a base mark
for 16, 8 or 2; a decimal number with needless zeros in front is a text. Everything else that reads as a
finite decimal number is a floating-point number, and infinity and not-a-number have spellings of
their own.
-/

namespace ScannedPage.Plain

/-- The spellings of nothing, apart from no spelling at all. -/
def isNullWord (s : String) : Bool := s == "null" || s == "Null" || s == "NULL" || s == "~"

/-- Nothing, or a spelling of it. -/
def isNull (s : String) : Bool := s.isEmpty || isNullWord s

/-- A truth value. -/
def bool? (s : String) : Option Bool :=
  if s == "true" || s == "True" || s == "TRUE" then some true
  else if s == "false" || s == "False" || s == "FALSE" then some false
  else none

/-- The value of a digit in bases up to 16. -/
def digit? (c : Char) : Option Nat :=
  if c.isDigit then some (c.toNat - '0'.toNat)
  else if 'a' ≤ c ∧ c ≤ 'f' then some (c.toNat - 'a'.toNat + 10)
  else if 'A' ≤ c ∧ c ≤ 'F' then some (c.toNat - 'A'.toNat + 10)
  else none

/-- The value of one digit or more in a base. -/
def digits? (base : Nat) (cs : List Char) : Option Nat :=
  if cs.isEmpty then none
  else cs.foldl (fun n? c => do
    let n ← n?
    let d ← digit? c
    if d < base then return n * base + d else none) (some 0)

/-- A whole number after a base mark. -/
def marked? : List Char → Option Nat
  | '0' :: 'x' :: cs => digits? 16 cs
  | '0' :: 'o' :: cs => digits? 8 cs
  | '0' :: 'b' :: cs => digits? 2 cs
  | _ => none

/-- The characters after a sign, if there is one. -/
def unsigned : List Char → List Char
  | '+' :: cs => cs
  | '-' :: cs => cs
  | cs => cs

/-- Only digits, with a zero in front of others: not a number. -/
def paddedDigits (cs : List Char) : Bool :=
  match unsigned cs with
  | '0' :: c :: rest => (c :: rest).all Char.isDigit
  | _ => false

/-- A natural number, perhaps after a plus sign. -/
def nat? (s : String) : Option Nat :=
  let cs := s.toList
  let body := match cs with
    | '+' :: rest => rest
    | _ => cs
  (marked? body).orElse fun _ => if paddedDigits cs then none else digits? 10 body

/-- The natural number after a minus sign. -/
def negated? (s : String) : Option Nat :=
  match s.toList with
  | '-' :: body => (marked? body).orElse fun _ => if paddedDigits body then none else digits? 10 body
  | _ => none

/-- A whole number. -/
def int? (s : String) : Option Int :=
  ((nat? s).map Int.ofNat).orElse fun _ => (negated? s).map fun n => -(n : Int)

/-- The digits at the front and the rest. -/
def digitsAndRest (cs : List Char) : List Char × List Char :=
  (cs.takeWhile Char.isDigit, cs.dropWhile Char.isDigit)

/-- The power of ten that an exponent, or no text at all, stands for. -/
def exponent? : List Char → Option Int
  | [] => some 0
  | c :: cs =>
    if c = 'e' ∨ c = 'E' then
      match cs with
      | '+' :: ds => (digits? 10 ds).map Int.ofNat
      | '-' :: ds => (digits? 10 ds).map fun n => -(n : Int)
      | ds => (digits? 10 ds).map Int.ofNat
    else none

/-- A decimal number with at least one digit, perhaps a fraction and perhaps an exponent. -/
def decimal? (cs : List Char) : Option (Nat × Int) := do
  let (whole, rest) := digitsAndRest cs
  let (places, rest) := match rest with
    | '.' :: more => digitsAndRest more
    | _ => ([], rest)
  let significand ← digits? 10 (whole ++ places)
  let power ← exponent? rest
  return (significand, power - places.length)

/-- A floating-point number; one beyond all finite numbers is none. -/
def float? (s : String) : Option Float :=
  if [".inf", ".Inf", ".INF", "+.inf", "+.Inf", "+.INF"].contains s then some (1.0 / 0.0)
  else if ["-.inf", "-.Inf", "-.INF"].contains s then some (-1.0 / 0.0)
  else if [".nan", ".NaN", ".NAN"].contains s then some (0.0 / 0.0)
  else do
    let (negative, body) := match s.toList with
      | '+' :: cs => (false, cs)
      | '-' :: cs => (true, cs)
      | cs => (false, cs)
    let (significand, power) ← decimal? body
    let x := Decimal.nearest negative significand power
    if x.isFinite then return x else none

end ScannedPage.Plain
