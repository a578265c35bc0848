/-!
# Reading decimal numbers

A decimal of a whole number and a power of ten becomes a floating-point number in one of two ways.
`nearest` rounds once, to the nearest number. `stepwise` first rounds the whole number and then
multiplies or divides by the power of ten, which rounds again; it is exact where the one-step reading
is, and it refuses numbers that overflow.
-/

namespace ScannedPage.Decimal

/-- The power of ten, rounded. -/
def powerOfTen (n : Nat) : Float := Float.ofScientific 1 false n

/-- A number times a power of ten; nothing if it overflows. Powers beyond `10^308` are taken in steps. -/
def timesPower (a : Float) (exponent : Int) : Option Float :=
  if exponent.natAbs ≤ 308 then
    if 0 ≤ exponent then
      let b := a * powerOfTen exponent.natAbs
      if b.isInf then none else some b
    else some (a / powerOfTen exponent.natAbs)
  else if a == 0.0 then some a
  else if h : 0 ≤ exponent then none
  else timesPower (a / powerOfTen 308) (exponent + 308)
termination_by (-exponent).toNat
decreasing_by omega

/-- A whole number below `2^64` times a power of ten, with a sign. -/
def stepwise (negative : Bool) (significand : Nat) (exponent : Int) : Option Float :=
  (timesPower significand.toUInt64.toFloat exponent).map fun a => if negative then -a else a

/-- The magnitude nearest to a decimal. A number of more than 400 places before its point is infinite
and one with more than 400 zeros after it is zero, without the power of ten being built. -/
def nearestMagnitude (significand : Nat) (exponent : Int) : Float :=
  let places : Int := exponent + (Nat.toDigits 10 significand).length
  if significand = 0 ∨ places < -400 then 0.0
  else if 400 < places then 1.0 / 0.0
  else Float.ofScientific significand (decide (exponent < 0)) exponent.natAbs

/-- The floating-point number nearest to a decimal. -/
def nearest (negative : Bool) (significand : Nat) (exponent : Int) : Float :=
  let a := nearestMagnitude significand exponent
  if negative then -a else a

end ScannedPage.Decimal
