import EventSieve.Binary64.Basic

/-!
# Decimal numbers

A decimal number is `coefficient · 10 ^ exponent`.

* `Decimal.magnitude`: the magnitude of the nearest double.
* `Binary64.ofDecimal`: the nearest double of either sign.
-/

namespace EventSieve

/-- `10 ^ n`. -/
def powerOfTen (n : Nat) : Nat := Nat.pow 10 n

/-- The number `coefficient · 10 ^ exponent`. -/
structure Decimal where
  coefficient : Nat
  exponent : Int
deriving DecidableEq

namespace Decimal

/-- The numerator of a decimal number as a fraction. -/
def num (d : Decimal) : Nat := d.coefficient * powerOfTen d.exponent.toNat

/-- The denominator of a decimal number as a fraction. -/
def den (d : Decimal) : Nat := powerOfTen (-d.exponent).toNat

/-- The magnitude of the double nearest to a decimal number. Exponents that put a number far
outside the range of doubles are decided without the power of ten: a positive coefficient with an
exponent past 310 is infinite, and `c < 10 ^ (log2 c / 3 + 1)` bounds the small ones. -/
def magnitude (d : Decimal) : Nat :=
  if d.coefficient = 0 then 0
  else if 310 < d.exponent then infinityMagnitude
  else if d.exponent + (Nat.log2 d.coefficient / 3 + 1 : Nat) < -324 then 0
  else nearestMagnitude d.num d.den

end Decimal

/-- The double nearest to `± d`. -/
def Binary64.ofDecimal (negative : Bool) (d : Decimal) : Binary64 :=
  .ofMagnitude negative d.magnitude

end EventSieve
