import EventSieve.Decimal.Shortest
import EventSieve.Text.Basic

/-!
# Layouts of decimal numbers

* `Decimal.positional`: all digits in their places, without an exponent and without idle zeros.
* `Decimal.scientific`: one digit before the point and a signed exponent.
* `Binary64.plainText`: a double in positional layout, its shortest digits.
-/

namespace EventSieve

namespace Decimal

/-- The decimal digits of the coefficient. -/
def digits (d : Decimal) : List Char := Nat.toDigits 10 d.coefficient

/-- Digits without the zeros they end with. -/
def dropEndZeros (s : List Char) : List Char := (s.reverse.dropWhile (· == '0')).reverse

/-- The digits before and after the decimal point, the latter without zeros at the end. -/
def parts (d : Decimal) : List Char × List Char :=
  if 0 ≤ d.exponent then
    if d.coefficient = 0 then (['0'], [])
    else (d.digits ++ List.replicate d.exponent.toNat '0', [])
  else
    let places := (-d.exponent).toNat
    let padded := List.replicate (places + 1 - d.digits.length) '0' ++ d.digits
    (padded.take (padded.length - places), dropEndZeros (padded.drop (padded.length - places)))

/-- A decimal number with every digit in its place, and a point only before a fraction. -/
def positional (d : Decimal) : List Char :=
  match d.parts with
  | (whole, []) => whole
  | (whole, fraction) => whole ++ '.' :: fraction

/-- The power of ten of the first digit. -/
def leadingPower (d : Decimal) : Int := d.exponent + d.digits.length - 1

/-- A decimal number as a first digit, the other digits after a point, and the power of ten with
its sign. -/
def scientific (d : Decimal) : List Char :=
  let power := d.leadingPower
  let mantissa := match dropEndZeros d.digits with
    | first :: second :: rest => first :: '.' :: second :: rest
    | short => short
  mantissa ++ 'e' :: (if power < 0 then '-' else '+') :: Nat.toDigits 10 power.natAbs

end Decimal

/-- A double in decimal: its shortest digits in their places (the larger one of two equally near),
a minus sign before the negative ones (zero too), and `inf` or `NaN` for what is not finite. -/
def Binary64.plainText (x : Binary64) : List Char :=
  if x.isNaN then ['N', 'a', 'N']
  else
    let body :=
      if x.isFinite then (Decimal.shortest .up x.magnitude).positional else ['i', 'n', 'f']
    if x.negative then '-' :: body else body

end EventSieve
