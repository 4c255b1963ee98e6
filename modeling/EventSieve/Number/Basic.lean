import EventSieve.Binary64.Basic

/-!
# Numbers

What a text may denote as a number: an integer of 128 bits, kept exactly, or a double. Comparison never
rounds an integer: a double inside the range of the integers is compared by its floor, which is an integer,
and only on a tie by what the floor leaves out.

* `Number.fitsWord`: the integers that 128 bits hold; `Number.toWord`: a double as such an integer.
* `Number.compareIntegerFloat`, `Number.compare?`: the order of two numbers that are not NaN.
* `Number.equals`: equality of the same kind of number; an integer equals no double.
-/

namespace EventSieve

/-- The numeric reading of a text. -/
inductive Number
  | integer (value : Int)
  | float (value : Binary64)
deriving DecidableEq

namespace Number

/-- The first natural number that 128-bit integers do not hold, `2¹²⁷`. -/
abbrev wordLimit : Nat := 0x80000000000000000000000000000000

/-- Whether an integer has a 128-bit two's complement form. -/
def fitsWord (v : Int) : Bool := -(wordLimit : Int) ≤ v && v < wordLimit

/-- A double as a 128-bit integer, without its fraction; one out of range becomes the end of the range
that is nearer, and a NaN becomes zero. -/
def toWord (x : Binary64) : Int :=
  match x.extent? with
  | none => 0
  | some .minusInfinity => -wordLimit
  | some .plusInfinity => wordLimit - 1
  | some (.at units) => max (-wordLimit) (min (wordLimit - 1) (units.tdiv unitsInOne))

/-- The double `2¹²⁷`, the first one past the 128-bit integers. -/
def floatLimit : Binary64 := .ofBits 0x47E0000000000000

/-- The order of an integer and a double. -/
def compareIntegerFloat (m : Int) (x : Binary64) : Option Ordering :=
  if x.isNaN then none
  else if (x.compare? floatLimit).any Ordering.isGE then some .lt
  else if (x.compare? floatLimit.neg).any Ordering.isLT then some .gt
  else
    match compare m (toWord x.floor) with
    | .eq => if (x.compare? x.floor).any Ordering.isGT then some .lt else some .eq
    | order => some order

/-- The order of two numbers by their exact values; a NaN has no order with anything. -/
def compare? : Number → Number → Option Ordering
  | .integer m, .integer n => some (compare m n)
  | .integer m, .float x => compareIntegerFloat m x
  | .float x, .integer m => (compareIntegerFloat m x).map Ordering.swap
  | .float x, .float y => x.compare? y

/-- Equality of numbers of one kind: integers by value, doubles numerically. -/
def equals : Number → Number → Bool
  | .integer m, .integer n => m == n
  | .float x, .float y => x == y
  | _, _ => false

instance : BEq Number := ⟨equals⟩

end Number

end EventSieve
