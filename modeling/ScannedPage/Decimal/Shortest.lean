/-!
# The fewest digits that name a floating-point number

A finite number other than zero is a whole number times a power of two, and every real number close
enough rounds to it. Among the decimals in that interval the ones with the fewest digits are the
shortest, and of these the nearest is chosen. The search runs over the digit counts `1 … 17` in exact
arithmetic; on each decimal grid only the two neighbours of the number can be the nearest point in
the interval. Zeros, infinities and not-a-number have texts of their own.
-/

namespace ScannedPage.Decimal

/-- A positive number: the digits `d₁d₂…` read as `0.d₁d₂… × 10^point`, without a zero at either end. -/
structure Digits where
  digits : List Char
  point : Int
deriving DecidableEq, Repr

/-- A number as the output distinguishes it. -/
inductive Parts
  | nan
  | infinite (negative : Bool)
  | zero (negative : Bool)
  | finite (negative : Bool) (digits : Digits)
deriving DecidableEq, Repr

/-- A positive fraction of natural numbers. -/
structure Fraction where
  numerator : Nat
  denominator : Nat

namespace Fraction

/-- `n · 2^e · 10^(-k)`. -/
def scaled (n : Nat) (e k : Int) : Fraction :=
  ⟨n * Nat.pow 2 e.toNat * Nat.pow 10 (-k).toNat, Nat.pow 2 (-e).toNat * Nat.pow 10 k.toNat⟩

/-- The fraction is at most a whole number. -/
def leNat (a : Fraction) (n : Nat) : Bool := decide (a.numerator ≤ n * a.denominator)

/-- The fraction is less than a whole number. -/
def ltNat (a : Fraction) (n : Nat) : Bool := decide (a.numerator < n * a.denominator)

/-- A whole number is at most the fraction. -/
def natLe (a : Fraction) (n : Nat) : Bool := decide (n * a.denominator ≤ a.numerator)

/-- A whole number is less than the fraction. -/
def natLt (a : Fraction) (n : Nat) : Bool := decide (n * a.denominator < a.numerator)

/-- The greatest whole number not above the fraction. -/
def floor (a : Fraction) : Nat := a.numerator / a.denominator

end Fraction

/-- A positive number as `m · 2^e`, with the numbers halfway to its neighbours as multiples of `2^(e - 2)`. -/
structure Binary where
  m : Nat
  e : Int
  /-- The lower halfway point is `(4 m - below) · 2^(e - 2)`. -/
  below : Nat
  /-- The upper halfway point is `(4 m + 2) · 2^(e - 2)`; both belong to the interval iff this holds. -/
  closed : Bool

namespace Binary

/-- The number with the given exponent and fraction fields of its 64 bits. -/
def ofFields (exponent fraction : Nat) : Binary :=
  if exponent = 0 then ⟨fraction, -1074, 2, fraction % 2 = 0⟩
  else ⟨Nat.pow 2 52 + fraction, exponent - 1075, if fraction = 0 ∧ 1 < exponent then 1 else 2, fraction % 2 = 0⟩

/-- A decimal `n · 10^k` rounds to the number. -/
def admits (b : Binary) (k : Int) (n : Nat) : Bool :=
  let low := Fraction.scaled (4 * b.m - b.below) (b.e - 2) k
  let high := Fraction.scaled (4 * b.m + 2) (b.e - 2) k
  if b.closed then low.leNat n && high.natLe n else low.ltNat n && high.natLt n

/-- The nearest point of the grid of multiples of `10^k` that rounds to the number, if there is one. -/
def onGrid (b : Binary) (k : Int) : Option Nat :=
  let value := Fraction.scaled b.m b.e k
  let n := value.floor
  let nearer := decide (2 * value.numerator ≤ (2 * n + 1) * value.denominator)
  match b.admits k n, b.admits k (n + 1) with
  | true, true => some (if nearer then n else n + 1)
  | true, false => some n
  | false, true => some (n + 1)
  | false, false => none

/-- The place of the decimal point: the least `p` with the number below `10^p`, by search from a bound. -/
def pointOf (b : Binary) : Nat → Int → Int
  | 0, p => p
  | fuel + 1, p => if (Fraction.scaled b.m b.e (p - 1)).ltNat 1 then b.pointOf fuel (p - 1) else p

/-- The first grid from a digit count on that holds a decimal which rounds to the number. -/
def search (b : Binary) (p : Int) : Nat → Nat → Nat × Int
  | 0, count => (b.m, p - count)
  | fuel + 1, count =>
    match b.onGrid (p - count) with
    | some n => (n, p - count)
    | none => b.search p fuel (count + 1)

end Binary

/-- Digits without the zeros at the end. -/
def trimZeros (ds : List Char) : List Char := (ds.reverse.dropWhile (· == '0')).reverse

/-- The shortest digits of a positive number. -/
def shortest (b : Binary) : Digits :=
  let p := b.pointOf 700 310
  let (n, k) := b.search p 18 1
  let ds := Nat.toDigits 10 n
  ⟨trimZeros ds, k + ds.length⟩

/-- What a floating-point number is, from its bits. -/
def parts (a : Float) : Parts :=
  let bits := a.toBits.toNat
  let negative := decide (bits / Nat.pow 2 63 = 1)
  let exponent := bits / Nat.pow 2 52 % 2048
  let fraction := bits % Nat.pow 2 52
  if exponent = 2047 then (if fraction = 0 then .infinite negative else .nan)
  else if exponent = 0 ∧ fraction = 0 then .zero negative
  else .finite negative (shortest (.ofFields exponent fraction))

/-- Digits with a decimal point and no exponent; whole numbers have no point. -/
def Digits.positional (d : Digits) : List Char :=
  if d.point ≤ 0 then ['0', '.'] ++ List.replicate (-d.point).toNat '0' ++ d.digits
  else if d.digits.length ≤ d.point.toNat then
    d.digits ++ List.replicate (d.point.toNat - d.digits.length) '0'
  else d.digits.take d.point.toNat ++ ['.'] ++ d.digits.drop d.point.toNat

/-- A sign in front, where there is one. -/
def signed (negative : Bool) (text : List Char) : List Char := if negative then '-' :: text else text

/-- The text of a number in a message: shortest, without an exponent. -/
def plain (a : Float) : String :=
  match parts a with
  | .nan => "NaN"
  | .infinite negative => String.ofList (signed negative ['i', 'n', 'f'])
  | .zero negative => String.ofList (signed negative ['0'])
  | .finite negative d => String.ofList (signed negative d.positional)

end ScannedPage.Decimal
