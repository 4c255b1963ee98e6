/-!
# Double-precision numbers

A number of the 64-bit binary format is a sign and a 63-bit magnitude. Magnitudes below
`infinityMagnitude` are finite, the one at it is the infinity, those above are NaN. Every finite
value is a whole number of **units** of `2⁻¹⁰⁷⁴`, the gap between the numbers next to zero.

* `Binary64.ofBits`, `Binary64.bits`: the 64-bit pattern.
* `unitsOf`: the value of a finite magnitude, in units; `unitsInOne`: how many of them make one.
* `Binary64.Extent`, `Binary64.extent?`: a number's place on the line of integers (of units) with
  an infinity at either end; a NaN has none.
* `Binary64.equals`: numeric equality, under which the two zeros are equal and no NaN equals itself.
* `Binary64.compare?`: the order of two doubles; a NaN has no order with anything.
* `wholePart`, `nextWhole`: the whole magnitudes next to one that is not whole.
* `Binary64.floor`: the greatest whole double that is not above a double.
* `halfEven`: a quotient of naturals rounded to the nearest one, a half to the even neighbour.
* `nearestMagnitude`: the magnitude nearest to a quotient; it is an infinity's from half a gap
  past the largest finite number on.

A quotient of at least `2⁵²` units is rounded at the unit's multiple `2ᵏ` that leaves it 53 bits.
The magnitude is then `k · 2⁵² + q` for the rounded multiple `q`, also when rounding up carried
into the next binade, and also below `2⁵²` units, where `k = 0`.
-/

namespace EventSieve

/-- The sign bit, `2⁶³`. -/
abbrev signBit : Nat := 0x8000000000000000

/-- The leading bit of a significand, `2⁵²`; the fraction bits are below it. -/
abbrev leadingBit : Nat := 0x10000000000000

/-- The magnitude of the infinities: exponent bits all set, fraction bits all clear. -/
abbrev infinityMagnitude : Nat := 0x7FF0000000000000

/-- How many units of `2⁻¹⁰⁷⁴` make one. -/
def unitsInOne : Nat := 1 <<< 1074

theorem unitsInOne_pos : 0 < unitsInOne := by
  have hshift : ∀ n : Nat, 0 < 1 <<< n := by
    intro n
    rw [Nat.one_shiftLeft]
    exact Nat.two_pow_pos n
  exact hshift 1074

/-- A 64-bit binary floating-point number. -/
structure Binary64 where
  /-- The sign bit. -/
  negative : Bool
  /-- The exponent and fraction bits, read as one number. -/
  magnitude : Nat
  /-- A magnitude has 63 bits. -/
  magnitude_lt : magnitude < signBit
deriving DecidableEq

/-- How many units of `2⁻¹⁰⁷⁴` a finite magnitude is worth: its fraction bits, below an implicit
leading bit and shifted by the exponent unless the exponent bits are clear. -/
def unitsOf (magnitude : Nat) : Nat :=
  let exponent := magnitude / leadingBit
  let fraction := magnitude % leadingBit
  if exponent = 0 then fraction else (leadingBit + fraction) <<< (exponent - 1)

namespace Binary64

/-- The number with the given 64-bit pattern; higher bits are ignored. -/
def ofBits (bits : Nat) : Binary64 :=
  ⟨bits / signBit % 2 = 1, bits % signBit, Nat.mod_lt _ (by decide)⟩

/-- The 64-bit pattern of a number. -/
def bits (x : Binary64) : Nat := (if x.negative then signBit else 0) + x.magnitude

/-- The number of the given sign and magnitude; magnitudes past the infinity become it. -/
def ofMagnitude (negative : Bool) (magnitude : Nat) : Binary64 :=
  ⟨negative, min magnitude infinityMagnitude,
    Nat.lt_of_le_of_lt (Nat.min_le_right _ _) (by decide)⟩

/-- The number with the other sign. -/
def neg (x : Binary64) : Binary64 := ⟨!x.negative, x.magnitude, x.magnitude_lt⟩

/-- Whether a number is neither infinite nor NaN. -/
def isFinite (x : Binary64) : Bool := x.magnitude < infinityMagnitude

/-- Whether a number is NaN. -/
def isNaN (x : Binary64) : Bool := infinityMagnitude < x.magnitude

/-- Whether a number is one of the two zeros. -/
def isZero (x : Binary64) : Bool := x.magnitude == 0

/-- Numeric equality: the zeros are equal, and a NaN equals nothing. -/
def equals (x y : Binary64) : Bool :=
  !x.isNaN && !y.isNaN && (x.bits == y.bits || (x.isZero && y.isZero))

instance : BEq Binary64 := ⟨equals⟩

/-- A place on the integers extended by an infinity at either end. -/
inductive Extent
  | minusInfinity
  | at (units : Int)
  | plusInfinity
deriving DecidableEq

namespace Extent

/-- The order of the extended integers. -/
def compare : Extent → Extent → Ordering
  | .at m, .at n => Ord.compare m n
  | .minusInfinity, .minusInfinity => .eq
  | .plusInfinity, .plusInfinity => .eq
  | .minusInfinity, _ => .lt
  | _, .minusInfinity => .gt
  | _, .plusInfinity => .lt
  | .plusInfinity, _ => .gt

end Extent

/-- The value of a finite number, in units of `2⁻¹⁰⁷⁴`. -/
def units (x : Binary64) : Int :=
  if x.negative then -(unitsOf x.magnitude : Int) else unitsOf x.magnitude

/-- Where a number lies on the extended integers, counted in units; a NaN lies nowhere. -/
def extent? (x : Binary64) : Option Extent :=
  if x.isNaN then none
  else if x.isFinite then some (.at x.units)
  else some (if x.negative then .minusInfinity else .plusInfinity)

end Binary64

/-- The exponent bits of the numbers from one to two. -/
abbrev exponentOfOne : Nat := 1023

/-- The exponent bits from which on the last fraction bit is worth one, and so every number whole. -/
abbrev exponentOfWhole : Nat := 1075

/-- The fraction bit that is worth one, where it is one of the fraction bits. -/
def fractionBitOfOne (magnitude : Nat) : Nat := 1 <<< (exponentOfWhole - magnitude / leadingBit)

/-- A magnitude without what it is worth less than one: nothing is left of those below one, and of
the others the fraction bits that are worth less are cleared. -/
def wholePart (magnitude : Nat) : Nat :=
  let exponent := magnitude / leadingBit
  if exponent < exponentOfOne then 0
  else if exponent < exponentOfWhole then magnitude - magnitude % fractionBitOfOne magnitude
  else magnitude

/-- The whole magnitude after the whole part of one that is not whole. A carry out of the fraction bits
goes on into the exponent bits. -/
def nextWhole (magnitude : Nat) : Nat :=
  if magnitude / leadingBit < exponentOfOne then exponentOfOne * leadingBit
  else wholePart magnitude + fractionBitOfOne magnitude

namespace Binary64

/-- The order of two numbers; a NaN has no order with anything. -/
def compare? (x y : Binary64) : Option Ordering :=
  x.extent?.bind fun p => y.extent?.map p.compare

/-- The greatest whole number that is not above a number. Infinities and NaNs stay as they are. -/
def floor (x : Binary64) : Binary64 :=
  if wholePart x.magnitude = x.magnitude then x
  else ofMagnitude x.negative
    (if x.negative then nextWhole x.magnitude else wholePart x.magnitude)

end Binary64

/-- The natural number nearest to `a / b`; of two equally near ones the even one. -/
def halfEven (a b : Nat) : Nat :=
  let q := a / b
  let r := a % b
  if 2 * r < b then q else if b < 2 * r then q + 1 else q + q % 2

/-- The magnitude nearest to `num / den`, ties to an even fraction, with no bound at infinity. -/
def roundMagnitude (num den : Nat) : Nat :=
  let scaled := num <<< 1074
  let shift := Nat.log2 (scaled / den) - 52
  shift * leadingBit + halfEven scaled (den <<< shift)

/-- The magnitude nearest to `num / den`, infinite from half a gap past the largest number on. -/
def nearestMagnitude (num den : Nat) : Nat := min (roundMagnitude num den) infinityMagnitude

/-- Rounding leaves a whole number alone. -/
theorem halfEven_mul (a : Nat) {b : Nat} (h : 0 < b) : halfEven (a * b) b = a := by
  simp [halfEven, h]

end EventSieve
