import Mathlib.Algebra.Order.Ring.Abs
import EventSieve.Proofs.Decimal.Layout
import EventSieve.Proofs.Expr.Equality

/-!
# Doubles as they are read back from their texts

A double is printed as its shortest decimal, and a text that is an integer of 128 bits is read as that
integer. From `2⁵³` on the shortest decimal of a double may be another integer than the double.

* `Binary64.printed`: the exact value of what a double is printed as.
* `Binary64.readBack`: the exact value of the number that this is read as.
* `Binary64.read?_plainText`: **the text of a finite double is read as a number of that value.**
* `Binary64.readBack_eq_value`: **below `2⁵³` and past `2¹²⁷` it is the value of the double.**
-/

namespace EventSieve

open Text

variable {x : Binary64} {negative : Bool} {n m : ℕ} {q : ℚ}

/-- A rational number with a sign. -/
def withSign (negative : Bool) (q : ℚ) : ℚ := if negative then -q else q

theorem abs_withSign (negative : Bool) (hq : 0 ≤ q) : |withSign negative q| = q := by
  cases negative with
  | true =>
    change |-q| = q
    rw [abs_neg, abs_of_nonneg hq]
  | false => exact abs_of_nonneg hq

theorem withSign_natCast (negative : Bool) (n : ℕ) :
    withSign negative n = ((Number.signed negative n : ℤ) : ℚ) := by
  cases negative with
  | true =>
    change -(n : ℚ) = ((-(n : ℤ) : ℤ) : ℚ)
    push_cast
    rfl
  | false => rfl

namespace Binary64

/-- The exact value of the shortest decimal of a finite double. -/
def printed (x : Binary64) : ℚ := withSign x.negative (Decimal.shortest .up x.magnitude).value

/-- The exact value of the number that the text of a finite double is read as: an integer of 128 bits if it
is printed as one, and else the value of the double. -/
def readBack (x : Binary64) : ℚ :=
  if x.printed.den = 1 ∧ -2 ^ 127 ≤ x.printed ∧ x.printed < 2 ^ 127 then x.printed else x.value

theorem value_eq (x : Binary64) : x.value = withSign x.negative ((unitsOf x.magnitude : ℚ) / unitsInOne) := by
  unfold value units withSign
  cases x.negative with
  | true =>
    change (((-(unitsOf x.magnitude : ℤ) : ℤ) : ℚ)) / unitsInOne = -((unitsOf x.magnitude : ℚ) / unitsInOne)
    push_cast
    rw [neg_div]
  | false => rfl

theorem units_nonneg (m : ℕ) : (0 : ℚ) ≤ (unitsOf m : ℚ) / unitsInOne := by positivity

theorem abs_value (x : Binary64) : |x.value| = (unitsOf x.magnitude : ℚ) / unitsInOne := by
  rw [value_eq]
  exact abs_withSign _ (units_nonneg _)

theorem abs_printed (x : Binary64) : |x.printed| = (Decimal.shortest .up x.magnitude).value :=
  abs_withSign _ (Decimal.value_nonneg _)

/-- A double that is printed as an integer has an integer for its shortest decimal. -/
theorem value_of_den (h : x.printed.den = 1) :
    (Decimal.shortest .up x.magnitude).value = (x.printed.num.natAbs : ℚ) := by
  have hnum : (x.printed.num : ℚ) = x.printed := (Rat.den_eq_one_iff _).1 h
  calc (Decimal.shortest .up x.magnitude).value = |x.printed| := x.abs_printed.symm
    _ = |(x.printed.num : ℚ)| := by rw [hnum]
    _ = (x.printed.num.natAbs : ℚ) := by rw [Nat.cast_natAbs, Int.cast_abs]

theorem isNaN_of_isFinite (hx : x.isFinite = true) : x.isNaN = false := by
  have hlt : x.magnitude < infinityMagnitude := of_decide_eq_true hx
  exact decide_eq_false (Nat.not_lt.2 hlt.le)

theorem plainText_eq (hx : x.isFinite = true) :
    x.plainText = Decimal.signText x.negative ++ (Decimal.shortest .up x.magnitude).positional := by
  unfold plainText
  rw [isNaN_of_isFinite hx, if_neg Bool.false_ne_true, hx, if_pos rfl]
  cases x.negative with
  | true => rfl
  | false => rfl

theorem value?_float (hx : x.isFinite = true) :
    (Number.float x).value? = some ((x.value : WithTop ℚ) : ExtendedRat) := by
  unfold Number.value?
  dsimp only
  rw [isNaN_of_isFinite hx, if_neg Bool.false_ne_true, if_pos hx]

/-- **The text of a finite double is read back** as a number of the value `readBack`. -/
theorem read?_plainText (hx : x.isFinite = true) :
    ∃ m, Number.read? x.plainText = some m ∧ m.value? = some ((x.readBack : WithTop ℚ) : ExtendedRat) := by
  set d := Decimal.shortest .up x.magnitude with hd
  have hplaces := d.places_parts
  have hread := hplaces.read? x.negative
  have htext : x.plainText = Decimal.signText x.negative ++ Decimal.Places.text d.parts.1 d.parts.2 := by
    rw [plainText_eq hx, ← hd, d.positional_eq]
  rw [htext, hread]
  set w := Number.signed x.negative (digitsValue d.parts.1) with hw
  -- without a fraction it is an integer that is printed
  have hprinted : d.parts.2 = [] → x.printed = (w : ℚ) := by
    intro hnil
    have hvalue := hplaces.value_eq
    rw [hnil, List.append_nil, List.length_nil, pow_zero, mul_one] at hvalue
    rw [printed, ← hd, ← hvalue, withSign_natCast]
  have hfits : d.parts.2 = [] → (Number.fitsWord w = true ↔ -2 ^ 127 ≤ x.printed ∧ x.printed < 2 ^ 127) := by
    intro hnil
    rw [hprinted hnil, Number.fitsWord_iff]
    norm_cast
  by_cases hint : d.parts.2 = [] ∧ Number.fitsWord w = true
  · have hback : x.readBack = (w : ℚ) := by
      have hden : x.printed.den = 1 := by
        rw [hprinted hint.1]
        exact Rat.den_intCast w
      rw [readBack, if_pos ⟨hden, (hfits hint.1).1 hint.2⟩, hprinted hint.1]
    rw [if_pos hint, hback]
    exact ⟨_, rfl, rfl⟩
  · have hback : x.readBack = x.value := by
      apply if_neg
      rintro ⟨hden, hbounds⟩
      have hnil := hplaces.value_eq_iff.1 ⟨_, value_of_den hden⟩
      exact hint ⟨hnil, (hfits hnil).2 hbounds⟩
    rw [if_neg hint, hback, hd, ofDecimal_shortest hx]
    exact ⟨_, rfl, value?_float hx⟩

theorem units_mono (h : m ≤ n) : (unitsOf m : ℚ) / unitsInOne ≤ (unitsOf n : ℚ) / unitsInOne := by
  have hcast : (unitsOf m : ℚ) ≤ unitsOf n := by exact_mod_cast unitsOf_mono h
  exact div_le_div_of_nonneg_right hcast unitsInOne_cast_pos.le

/-- A double below another one is printed as a decimal below it. -/
theorem shortest_lt (hx : x.isFinite = true) (hm : m ≤ infinityMagnitude)
    (h : |x.value| < (unitsOf m : ℚ) / unitsInOne) :
    (Decimal.shortest .up x.magnitude).value < (unitsOf m : ℚ) / unitsInOne := by
  have hfinite : x.magnitude < infinityMagnitude := of_decide_eq_true hx
  by_contra hlarge
  have hle := Decimal.le_magnitude hm (not_lt.1 hlarge)
  rw [Decimal.magnitude_shortest .up hfinite.le] at hle
  rw [abs_value] at h
  exact absurd h (not_lt.2 (units_mono hle))

/-- A double above another one is printed as a decimal above it. -/
theorem lt_shortest (hx : x.isFinite = true) (h : (unitsOf m : ℚ) / unitsInOne < |x.value|) :
    (unitsOf m : ℚ) / unitsInOne < (Decimal.shortest .up x.magnitude).value := by
  have hfinite : x.magnitude < infinityMagnitude := of_decide_eq_true hx
  by_contra hsmall
  have hle := Decimal.magnitude_le (not_lt.1 hsmall)
  rw [Decimal.magnitude_shortest .up hfinite.le] at hle
  rw [abs_value] at h
  exact absurd h (not_lt.2 (units_mono hle))

/-- A number of units that makes a whole number. -/
theorem units_div (h : unitsOf m = n * unitsInOne) : (unitsOf m : ℚ) / unitsInOne = n := by
  rw [h]
  push_cast
  exact mul_div_cancel_right₀ _ (ne_of_gt unitsInOne_cast_pos)

/-- The integers below `2⁵³` are doubles. -/
theorem exists_magnitude (hn : n < 2 ^ 53) :
    ∃ m ≤ infinityMagnitude, (unitsOf m : ℚ) / unitsInOne = n := by
  obtain ⟨m, hm, hunits⟩ := exists_unitsOf (k := 1074) (by decide) hn
  refine ⟨m, Nat.le_trans hm (by decide), units_div ?_⟩
  rw [hunits, shiftLeft_units]

/-- **A double below `2⁵³` that is printed as an integer is that integer.** -/
theorem printed_eq_value (hx : x.isFinite = true) (hden : x.printed.den = 1) (h : |x.value| < 2 ^ 53) :
    x.printed = x.value := by
  have hfinite : x.magnitude < infinityMagnitude := of_decide_eq_true hx
  have hlimit : (unitsOf (1076 * leadingBit) : ℚ) / unitsInOne = (2 ^ 53 : ℕ) :=
    units_div (by decide +kernel)
  have hnat := value_of_den hden
  have hlt : x.printed.num.natAbs < 2 ^ 53 := by
    have hprinted := shortest_lt hx (m := 1076 * leadingBit) (by decide) (by rw [hlimit]; exact_mod_cast h)
    rw [hlimit, hnat] at hprinted
    exact_mod_cast hprinted
  -- as a double the integer is rounded to itself, and as what is printed to the number
  obtain ⟨m, hm, hunits⟩ := exists_magnitude hlt
  have hsame : m = x.magnitude := by
    rw [← Decimal.magnitude_shortest .up hfinite.le]
    exact (Decimal.magnitude_of_value hm (hnat.trans hunits.symm)).symm
  rw [printed, value_eq, hnat, ← hunits, hsame]

/-- **Below `2⁵³` and past `2¹²⁷` what is read back is the double.** -/
theorem readBack_eq_value (hx : x.isFinite = true) (h : |x.value| < 2 ^ 53 ∨ 2 ^ 127 < |x.value|) :
    x.readBack = x.value := by
  by_cases hint : x.printed.den = 1 ∧ -2 ^ 127 ≤ x.printed ∧ x.printed < 2 ^ 127
  · obtain ⟨hden, hlow, hhigh⟩ := hint
    rw [readBack, if_pos ⟨hden, hlow, hhigh⟩]
    rcases h with h | h
    · exact printed_eq_value hx hden h
    · -- past `2¹²⁷` no integer of 128 bits is printed
      have hlimit : (unitsOf (1150 * leadingBit) : ℚ) / unitsInOne = (2 ^ 127 : ℕ) :=
        units_div (by decide +kernel)
      have hprinted := lt_shortest hx (m := 1150 * leadingBit) (by rw [hlimit]; exact_mod_cast h)
      rw [hlimit, ← abs_printed] at hprinted
      have hle : |x.printed| ≤ 2 ^ 127 := abs_le.2 ⟨hlow, hhigh.le⟩
      exact absurd hle (not_le.2 (by exact_mod_cast hprinted))
  · rw [readBack, if_neg hint]

end Binary64

end EventSieve
