import EventSieve.Json.Reading

/-!
# Numbers

* `readNumber`: an integer that 64 bits hold, or a double. The digits are taken into a 64-bit
  integer as long as they fit; a double is that integer multiplied or divided by a power of ten that
  is itself a double, each step rounded. A number past the largest double is malformed.
* `skipNumber`: the end of a number that does not matter. It has to be well formed only.
-/

namespace EventSieve.Json

open Reading

/-- Whether a unit is a decimal digit. -/
def isDigitUnit (u : Option Char) : Bool := u.any Char.isDigit

/-- The decimal digits at the front. -/
def digitsOf (s : Source) : List Char := (s.takeWhile isDigitUnit).filterMap id

/-- What follows the decimal digits at the front. -/
def afterDigits (s : Source) : Source := s.dropWhile isDigitUnit

/-- Where there are digits, what follows them is shorter. -/
theorem length_afterDigits_lt {s : Source} {c : Char} {digits : List Char}
    (h : digitsOf s = c :: digits) : (afterDigits s).length < s.length := by
  match s with
  | [] => simp [digitsOf] at h
  | none :: s => simp [digitsOf, isDigitUnit] at h
  | some d :: s =>
    by_cases hd : d.isDigit
    · have := (List.dropWhile_sublist isDigitUnit (l := s)).length_le
      simp only [afterDigits, isDigitUnit, Option.any_some, hd, List.dropWhile_cons_of_pos,
        List.length_cons] at this ⊢
      omega
    · simp [digitsOf, isDigitUnit, hd] at h

/-- One or more decimal digits. -/
def readDigits (s : Source) : Reading (List Char) s.length :=
  match h : digitsOf s with
  | [] => defect (if s.isEmpty then .truncated else .malformed)
  | c :: digits => found (c :: digits) (afterDigits s) (length_afterDigits_lt h)

/-- One or more decimal digits without a zero in front of others. -/
def readWhole (s : Source) : Reading (List Char) s.length :=
  (readDigits s).check fun
    | '0' :: _ :: _ => .error .malformed
    | digits => .ok digits

/-- The first number that 64 bits do not hold, `2⁶⁴`. -/
abbrev significandLimit : Nat := 0x10000000000000000

/-- Digits taken into a number as long as 64 bits hold it, and the digits left then. -/
def absorb (n : Nat) : List Char → Nat × List Char
  | [] => (n, [])
  | c :: digits =>
    let next := 10 * n + (c.toNat - '0'.toNat)
    if next < significandLimit then absorb next digits else (n, c :: digits)

/-- The double nearest to a power of ten, up to `10 ^ 308`. -/
def powerMagnitude (k : Nat) : Nat := nearestMagnitude (powerOfTen k) 1

/-- A double divided by `10 ^ k`, in steps of at most `10 ^ 308`, each rounded. -/
def scaleDown (x : Nat) (k : Nat) : Nat :=
  if k ≤ 308 then nearestMagnitude (unitsOf x) (unitsOf (powerMagnitude k))
  else if x = 0 then 0
  else scaleDown (nearestMagnitude (unitsOf x) (unitsOf (powerMagnitude 308))) (k - 308)
termination_by k

/-- The double of an integer times a power of ten, rounded after each step; none if it is past the
largest double. -/
def scaled? (n : Nat) (exponent : Int) : Option Nat :=
  let x := nearestMagnitude n 1
  if exponent < 0 then some (scaleDown x exponent.natAbs)
  else if exponent ≤ 308 then
    let y := nearestMagnitude (unitsOf x * unitsOf (powerMagnitude exponent.natAbs)) (1 <<< 2148)
    if y = infinityMagnitude then none else some y
  else if x = 0 then some 0
  else none

/-- The number of a sign, an integer and a power of ten, as a double. -/
def floatHead (negative : Bool) (n : Nat) (exponent : Int) : Except Defect Head :=
  match scaled? n exponent with
  | some x => .ok (.float (.ofMagnitude negative x))
  | none => .error .malformed

/-- The number of a sign and an integer below `2⁶⁴`: an integer unless it is a negative zero or
below the least 64-bit integer. -/
def integerHead (negative : Bool) (n : Nat) : Head :=
  if !negative then .integer n
  else if n = 0 ∨ signBit < n then .float (.ofMagnitude true (nearestMagnitude n 1))
  else .integer (-n)

/-- The number of decimal digits with a sign. -/
def signedValue (negative : Bool) (digits : List Char) : Int :=
  let n : Int := Nat.ofDigitChars 10 digits 0
  if negative then -n else n

/-- The power of ten of an exponent, read after its letter. -/
def readExponent : (s : Source) → Reading Int s.length
  | some '-' :: s => ((readDigits s).map (signedValue true)).relax
  | some '+' :: s => ((readDigits s).map (signedValue false)).relax
  | s => (readDigits s).map (signedValue false)

/-- The power of ten of the exponent at the front, if there is an exponent. -/
def readOptionalExponent : (s : Source) → Reading (Option Int) (s.length + 1)
  | some 'e' :: s | some 'E' :: s => ((readExponent s).map some).relax.relax
  | s => here none s

/-- The digits of the fraction at the front, if there is a fraction. -/
def readOptionalFraction : (s : Source) → Reading (List Char) (s.length + 1)
  | some '.' :: s => (readDigits s).relax.relax
  | s => here [] s

/-- The number of a sign, the digits before and after the point, and the power of ten, where
leaving away both the fraction and the exponent makes an integer. An integer digit that does not fit
raises the power of ten, a fraction digit that does not fit is dropped. -/
def numberHead (negative : Bool) (whole fraction : List Char) (power : Option Int) :
    Except Defect Head :=
  let (n, left) := absorb 0 whole
  let (m, unused) := absorb n fraction
  if fraction.isEmpty && power.isNone && left.isEmpty then .ok (integerHead negative n)
  else floatHead negative m
    (power.getD 0 + left.length - (fraction.length - unused.length : Nat))

/-- A number, read after its sign. -/
def readNumber (negative : Bool) (s : Source) : Reading Head s.length :=
  (readWhole s).andAlso fun whole s =>
    (readOptionalFraction s).andAlso fun fraction s =>
      (readOptionalExponent s).check (numberHead negative whole fraction)

/-- The end of a number that does not matter, read after its sign. -/
def skipNumber (s : Source) : Reading Unit s.length :=
  ((readWhole s).andAlso fun _ s =>
    (readOptionalFraction s).andAlso fun _ s =>
      (readOptionalExponent s).map fun _ => ()).orMalformed

end EventSieve.Json
