import EventSieve.Decimal.Basic
import EventSieve.Number.Basic
import EventSieve.Text.Basic

/-!
# Reading numbers

A numeral is read without its commas (which group digits) and the blanks around it. It is an
optional sign followed by one of

* `0x` or `0X` and hexadecimal digits of a number below `2¹²⁷`;
* decimal digits of a number that 128-bit integers hold;
* decimal digits with a point, an exponent or both, or too many digits for an integer, which
  denote the nearest double. Digits of an exponent past the one that brings it to `65536` or more
  do not count.

Names such as `inf` or `nan` are no numerals, so a reading is never NaN.
-/

namespace EventSieve.Number

/-- A text split into its sign (whether it is negative) and what follows the sign. -/
def splitSign : List Char → Bool × List Char
  | '-' :: s => (true, s)
  | '+' :: s => (false, s)
  | s => (false, s)

/-- A natural number with a sign. -/
def signed (negative : Bool) (n : Nat) : Int := if negative then -(n : Int) else n

/-- The digits after `0x` or `0X`, if a text starts so. -/
def afterHexMark? : List Char → Option (List Char)
  | '0' :: 'x' :: s => some s
  | '0' :: 'X' :: s => some s
  | _ => none

/-- The integer of a sign and hexadecimal digits, if the digits denote less than `2¹²⁷`. -/
def readHex? (negative : Bool) (digits : List Char) : Option Number :=
  match Text.hexValue? digits with
  | some n => if n < wordLimit then some (.integer (signed negative n)) else none
  | none => none

/-- The integer of a sign and decimal digits, if 128 bits hold it. -/
def readInteger? (negative : Bool) (digits : List Char) : Option Int :=
  if digits.isEmpty || !digits.all Char.isDigit then none
  else
    let v := signed negative (Text.digitsValue digits)
    if fitsWord v then some v else none

/-- The size from which on an exponent takes no more digits. Doubles end long before, so this shows
only in numerals with tens of thousands of zeros. -/
abbrev exponentLimit : Nat := 65536

/-- One more digit of an exponent, which does not count once the limit is reached. -/
def pushExponentDigit (value : Nat) (c : Char) : Nat :=
  if value < exponentLimit then 10 * value + (c.toNat - '0'.toNat) else value

/-- The number that the digits of an exponent denote, as far as they count. -/
def exponentValue (digits : List Char) : Nat := digits.foldl pushExponentDigit 0

/-- The power of ten that an exponent part denotes: nothing at all, or `e` or `E`, an optional sign
and digits. -/
def readExponent? : List Char → Option Int
  | [] => some 0
  | mark :: s =>
    if mark = 'e' ∨ mark = 'E' then
      let (negative, digits) := splitSign s
      if digits.isEmpty || !digits.all Char.isDigit then none
      else some (signed negative (exponentValue digits))
    else none

/-- The digits after a point that starts a text, and what follows them. -/
def splitFraction : List Char → List Char × List Char
  | '.' :: s => s.span Char.isDigit
  | s => ([], s)

/-- The decimal number that unsigned digits with an optional point and exponent denote; there is a
digit before the point or after it. -/
def readDecimal? (s : List Char) : Option Decimal :=
  let (whole, s) := s.span Char.isDigit
  let (fraction, s) := splitFraction s
  if whole.isEmpty && fraction.isEmpty then none
  else
    (readExponent? s).map fun power =>
      ⟨Text.digitsValue (whole ++ fraction), power - fraction.length⟩

/-- A numeral as it is read: without its commas and the blanks around the rest. -/
def numeralOf (text : List Char) : List Char := Text.trim (text.filter (· ≠ ','))

/-- The number that a text denotes, if it is a numeral. -/
def read? (text : List Char) : Option Number :=
  let (negative, body) := splitSign (numeralOf text)
  match afterHexMark? body with
  | some digits => readHex? negative digits
  | none =>
    match readInteger? negative body with
    | some v => some (.integer v)
    | none => (readDecimal? body).map fun d => .float (.ofDecimal negative d)

end EventSieve.Number
