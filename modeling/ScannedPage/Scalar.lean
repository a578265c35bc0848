/-!
# The arithmetic of the numeric rules

Thresholds, local statistics, contrast stretch and polygon filling are written once, over any
arithmetic with the operations below. A program evaluates them in floating point (`instScalarFloat`,
with each operation rounded and not-a-number and infinities possible); a statement about exact
numbers evaluates the same rules in an exact field. Not-a-number is recognised by not being at most
itself, which exact numbers always are.
-/

namespace ScannedPage

/-- Arithmetic with an order, square root, exponential and conversions to whole numbers. -/
class Scalar (K : Type) extends Add K, Sub K, Mul K, Div K, Neg K, NatCast K, LE K, LT K where
  /-- The absolute value. -/
  abs : K → K
  /-- The square root of a number that is not negative. -/
  sqrt : K → K
  /-- The natural exponential. -/
  exp : K → K
  /-- The nearest whole number; halves move away from zero. -/
  round : K → K
  /-- The greatest natural number not above; zero for negative numbers and for not-a-number. -/
  floorNat : K → Nat
  /-- The least whole number not below; zero for not-a-number. -/
  ceilInt : K → Int
  /-- Neither infinite nor not-a-number. -/
  isFinite : K → Bool

/-- Floating point; conversions to whole numbers stop at the bounds of 64 bits. -/
instance instScalarFloat : Scalar Float where
  natCast := Float.ofNat
  abs := Float.abs
  sqrt := Float.sqrt
  exp := Float.exp
  round := Float.round
  floorNat a := a.toUInt64.toNat
  ceilInt a := a.ceil.toInt64.toInt
  isFinite := Float.isFinite

namespace Scalar

variable {K : Type} [Scalar K] [DecidableLE K] [DecidableLT K]

/-- A number, rather than not-a-number. -/
@[inline]
def isNumber (a : K) : Bool := decide (a ≤ a)

/-- The lesser of two, where not-a-number never wins. -/
@[inline]
def least (a b : K) : K := if b < a then b else if isNumber a then a else b

/-- The greater of two, where not-a-number never wins. -/
@[inline]
def greatest (a b : K) : K := if a < b then b else if isNumber a then a else b

/-- The value moved into an interval; not-a-number stays. -/
@[inline]
def clamp (a low high : K) : K := if a < low then low else if high < a then high else a

/-- The gray level a value stands for: moved into `0 … 255`, with its fraction dropped. -/
@[inline]
def toLevel (a : K) : Nat := floorNat (clamp a ((0 : Nat) : K) ((255 : Nat) : K))

end Scalar

end ScannedPage
