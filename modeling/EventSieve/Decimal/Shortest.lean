import EventSieve.Decimal.Basic

/-!
# The shortest decimal that reads back

For one digit, two digits, and so on, the two multiples of the power of ten next to a double are
tried; the first that round back to the double decide. Of two the nearer is taken. A double may lie
in the middle between two (`2⁵⁰ + 1/4` does, with seventeen digits); `Tie` tells which one it gets.

* `Decimal.atPlace?`: the candidate on one decimal grid.
* `Decimal.shortest`: the shortest decimal of a finite magnitude.
-/

namespace EventSieve

/-- Which of two equally near decimals is taken. -/
inductive Tie
  /-- The larger one. -/
  | up
  /-- The one whose last digit is even. -/
  | even
deriving DecidableEq

namespace Decimal

/-- The number of decimal digits of a positive natural number. -/
def digitCount (n : Nat) : Nat := (Nat.toDigits 10 n).length

/-- The number of digits `num / den` has before the decimal point, and for numbers below one minus
the number of zeros that follow the point: the least `p` with `num / den < 10 ^ p`. -/
def pointPlace (num den : Nat) : Int :=
  if den ≤ num then digitCount (num / den) else 1 - digitCount ((den - 1) / num)

/-- Whether of the two whole numbers next to `num / den` the lower one is to be taken: it is nearer,
or equally near and the tie goes to it. -/
def takesLower (tie : Tie) (num den : Nat) : Bool :=
  2 * (num % den) < den ||
    (2 * (num % den) == den && tie == .even && num / den % 2 == 0)

/-- The multiple of `10 ^ place` next to `units` units whose nearest double is `magnitude`; of two
such neighbours the nearer one. -/
def atPlace? (tie : Tie) (magnitude units : Nat) (place : Int) : Option Decimal :=
  let num := units * powerOfTen (-place).toNat
  let den := powerOfTen place.toNat <<< 1074
  let lower : Decimal := ⟨num / den, place⟩
  let upper : Decimal := ⟨num / den + 1, place⟩
  match lower.magnitude == magnitude, upper.magnitude == magnitude with
  | true, true => if takesLower tie num den then some lower else some upper
  | true, false => some lower
  | false, true => some upper
  | false, false => none

/-- The value of `units` units with all its digits. -/
def exact (units : Nat) : Decimal := ⟨units * Nat.pow 5 1074, -1074⟩

/-- The first candidate that reads back on the grids from `place` down to `place - tries`, and
failing all of them the value with all its digits. -/
def search (tie : Tie) (magnitude units : Nat) : Nat → Int → Decimal
  | 0, _ => exact units
  | tries + 1, place =>
    match atPlace? tie magnitude units place with
    | some d => d
    | none => search tie magnitude units tries (place - 1)

/-- The shortest decimal whose nearest double has the given finite magnitude, of those the one
nearest to it. Seventeen digits tell any two doubles apart. -/
def shortest (tie : Tie) (magnitude : Nat) : Decimal :=
  if magnitude = 0 then ⟨0, 0⟩
  else
    let units := unitsOf magnitude
    search tie magnitude units 17 (pointPlace units (1 <<< 1074) - 1)

end Decimal

end EventSieve
