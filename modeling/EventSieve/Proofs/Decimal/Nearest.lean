import Mathlib.Tactic.FieldSimp
import Mathlib.Tactic.NormNum
import EventSieve.Decimal.Shortest
import EventSieve.Proofs.Binary64.Rounding
import EventSieve.Proofs.Number.Value

/-!
# The double nearest to a decimal number

* `Decimal.value`: the exact value of a decimal number.
* `Decimal.magnitude_eq`: the numbers that are decided by their exponents alone are rounded like the rest.
* `Decimal.magnitude_mono`: **the nearest double keeps the order of values**, so that it does not depend on
  how a value is cut into coefficient and exponent.
* `Decimal.magnitude_of_large`, `Decimal.magnitude_of_small`: what numbers far outside the range become.
* `Decimal.magnitude_shortest`: **the shortest decimal of a double reads back.**
-/

namespace EventSieve

variable {a b m n num den : ℕ} {d e : Decimal} {tie : Tie}

theorem shiftLeft_units (n : ℕ) : n <<< 1074 = n * unitsInOne := by
  have hshift : ∀ k : ℕ, n <<< k = n * 1 <<< k := by
    intro k
    rw [Nat.shiftLeft_eq, Nat.one_shiftLeft]
  exact hshift 1074

theorem roundMagnitude_eq (num den : ℕ) :
    roundMagnitude num den = roundUnits (num * unitsInOne) den := by
  rw [← shiftLeft_units]
  rfl

/-- Less than half a unit is rounded to nothing. -/
theorem roundUnits_eq_zero (h : 2 * a < b) : roundUnits a b = 0 := by
  have hquot : a / b = 0 := Nat.div_eq_of_lt (by omega)
  have hrest : a % b = a := Nat.mod_eq_of_lt (by omega)
  unfold roundUnits halfEven
  rw [hquot, Nat.log2_zero, Nat.zero_sub, Nat.shiftLeft_zero, hquot, hrest, if_pos h]
  rfl

namespace Decimal

/-- The exact value of a decimal number. -/
def value (d : Decimal) : ℚ := d.coefficient * 10 ^ d.exponent

theorem value_nonneg (d : Decimal) : 0 ≤ d.value := by
  have hten : (0 : ℚ) < 10 ^ d.exponent := zpow_pos (by norm_num) _
  exact mul_nonneg (Nat.cast_nonneg _) hten.le

theorem powerOfTen_pos (n : ℕ) : 0 < powerOfTen n := Nat.pow_pos (by decide)

theorem powerOfTen_mono (h : m ≤ n) : powerOfTen m ≤ powerOfTen n := Nat.pow_le_pow_right (by decide) h

theorem powerOfTen_add (m n : ℕ) : powerOfTen (m + n) = powerOfTen m * powerOfTen n := Nat.pow_add 10 m n

theorem den_pos (d : Decimal) : 0 < d.den := powerOfTen_pos _

theorem den_cast_pos (d : Decimal) : (0 : ℚ) < d.den := by exact_mod_cast d.den_pos

theorem powerOfTen_cast (n : ℕ) : (powerOfTen n : ℚ) = 10 ^ n := by
  change ((10 ^ n : ℕ) : ℚ) = 10 ^ n
  push_cast
  rfl

theorem value_eq (d : Decimal) : d.value = (d.num : ℚ) / d.den := by
  obtain ⟨c, x⟩ := d
  unfold value num den
  push_cast
  rw [powerOfTen_cast, powerOfTen_cast]
  rcases Int.le_total 0 x with hx | hx
  · obtain ⟨k, rfl⟩ := Int.eq_ofNat_of_zero_le hx
    have hneg : (-(k : ℤ)).toNat = 0 := by omega
    have hpos : (k : ℤ).toNat = k := by omega
    rw [hneg, hpos, zpow_natCast, pow_zero, div_one]
  · obtain ⟨k, hk⟩ := Int.eq_ofNat_of_zero_le (show 0 ≤ -x by omega)
    have hneg : (-x).toNat = k := by omega
    have hpos : x.toNat = 0 := by omega
    have hx' : x = -(k : ℤ) := by omega
    rw [hneg, hpos, hx', zpow_neg, zpow_natCast, pow_zero, mul_one, div_eq_mul_inv]

/-- Values are compared by cross-multiplication. -/
theorem value_le_iff : d.value ≤ e.value ↔ d.num * e.den ≤ e.num * d.den := by
  rw [value_eq, value_eq, div_le_div_iff₀ d.den_cast_pos e.den_cast_pos]
  norm_cast

theorem units_le_value_iff :
    (unitsOf m : ℚ) / unitsInOne ≤ d.value ↔ unitsOf m * d.den ≤ d.num * unitsInOne := by
  rw [value_eq, div_le_div_iff₀ unitsInOne_cast_pos d.den_cast_pos]
  norm_cast

theorem value_le_units_iff :
    d.value ≤ (unitsOf m : ℚ) / unitsInOne ↔ d.num * unitsInOne ≤ unitsOf m * d.den := by
  rw [value_eq, div_le_div_iff₀ d.den_cast_pos unitsInOne_cast_pos]
  norm_cast

/-- A positive number with an exponent past 310 is past every finite double. -/
theorem infinite_of_exponent (hc : d.coefficient ≠ 0) (hx : 310 < d.exponent) :
    nearestMagnitude d.num d.den = infinityMagnitude := by
  have hden : d.den = 1 := by
    have hneg : (-d.exponent).toNat = 0 := by omega
    unfold den
    rw [hneg]
    rfl
  have hnum : powerOfTen 311 ≤ d.num := by
    calc powerOfTen 311 ≤ powerOfTen d.exponent.toNat := powerOfTen_mono (by omega)
      _ = 1 * powerOfTen d.exponent.toNat := (Nat.one_mul _).symm
      _ ≤ d.num := Nat.mul_le_mul_right _ (by omega)
  have hlarge : unitsOf infinityMagnitude ≤ powerOfTen 311 * unitsInOne := by decide +kernel
  have hround : infinityMagnitude ≤ roundMagnitude d.num d.den := by
    rw [roundMagnitude_eq]
    apply le_roundUnits d.den_pos
    rw [hden, Nat.mul_one]
    exact Nat.le_trans hlarge (Nat.mul_le_mul_right _ hnum)
  exact Nat.min_eq_right hround

/-- A number has fewer than `log2 / 3 + 2` digits. -/
theorem lt_powerOfTen (n : ℕ) : n < powerOfTen (Nat.log2 n / 3 + 1) := by
  calc n < 2 ^ (Nat.log2 n + 1) := Nat.lt_log2_self
    _ ≤ 2 ^ (3 * (Nat.log2 n / 3 + 1)) := Nat.pow_le_pow_right (by decide) (by omega)
    _ = 8 ^ (Nat.log2 n / 3 + 1) := by rw [Nat.pow_mul]
    _ ≤ 10 ^ (Nat.log2 n / 3 + 1) := Nat.pow_le_pow_left (by decide) _

/-- A number of few digits with a small exponent is less than half a unit. -/
theorem zero_of_exponent (hx : d.exponent + (Nat.log2 d.coefficient / 3 + 1 : ℕ) < -324) :
    nearestMagnitude d.num d.den = 0 := by
  set digits := Nat.log2 d.coefficient / 3 + 1
  have hcoefficient : d.coefficient < powerOfTen digits := lt_powerOfTen _
  have hnum : d.num = d.coefficient := by
    have hpos : d.exponent.toNat = 0 := by omega
    unfold num
    rw [hpos]
    exact Nat.mul_one _
  have hden : powerOfTen digits * powerOfTen 325 ≤ d.den := by
    calc powerOfTen digits * powerOfTen 325 = powerOfTen (digits + 325) := (powerOfTen_add _ _).symm
      _ ≤ d.den := powerOfTen_mono (by omega)
  have hsmall : 2 * unitsInOne < powerOfTen 325 := by decide +kernel
  have hround : roundMagnitude d.num d.den = 0 := by
    rw [roundMagnitude_eq]
    apply roundUnits_eq_zero
    calc 2 * (d.num * unitsInOne) = d.coefficient * (2 * unitsInOne) := by rw [hnum]; ring
      _ < powerOfTen digits * powerOfTen 325 := Nat.mul_lt_mul'' hcoefficient hsmall
      _ ≤ d.den := hden
  exact Nat.min_eq_left (Nat.le_trans (Nat.le_of_eq hround) (Nat.zero_le _))
    |>.trans hround

/-- **All decimal numbers are rounded alike**, also those that are decided by their exponents alone. -/
theorem magnitude_eq (d : Decimal) : d.magnitude = nearestMagnitude d.num d.den := by
  unfold magnitude
  by_cases hc : d.coefficient = 0
  · have hnum : d.num = 0 := by
      unfold num
      rw [hc, Nat.zero_mul]
    have hround : roundMagnitude d.num d.den = 0 := by
      rw [roundMagnitude_eq, hnum, Nat.zero_mul]
      apply roundUnits_eq_zero
      have hpos := d.den_pos
      omega
    rw [if_pos hc, nearestMagnitude, hround, Nat.zero_min]
  · rw [if_neg hc]
    by_cases hlarge : 310 < d.exponent
    · rw [if_pos hlarge, infinite_of_exponent hc hlarge]
    · rw [if_neg hlarge]
      by_cases hsmall : d.exponent + (Nat.log2 d.coefficient / 3 + 1 : ℕ) < -324
      · rw [if_pos hsmall, zero_of_exponent hsmall]
      · rw [if_neg hsmall]

/-- **The nearest double keeps the order of values.** -/
theorem magnitude_mono (h : d.value ≤ e.value) : d.magnitude ≤ e.magnitude := by
  have hcross : d.num * e.den ≤ e.num * d.den := value_le_iff.1 h
  have hround : roundMagnitude d.num d.den ≤ roundMagnitude e.num e.den := by
    rw [roundMagnitude_eq, roundMagnitude_eq]
    refine roundUnits_mono d.den_pos e.den_pos ?_
    calc d.num * unitsInOne * e.den = unitsInOne * (d.num * e.den) := by ring
      _ ≤ unitsInOne * (e.num * d.den) := Nat.mul_le_mul_left _ hcross
      _ = e.num * unitsInOne * d.den := by ring
  rw [magnitude_eq, magnitude_eq, nearestMagnitude, nearestMagnitude]
  omega

/-- The nearest double depends on the value alone. -/
theorem magnitude_congr (h : d.value = e.value) : d.magnitude = e.magnitude :=
  Nat.le_antisymm (magnitude_mono h.le) (magnitude_mono h.ge)

/-- A number that is no less than a finite double is rounded to no smaller one. -/
theorem le_magnitude (hm : m ≤ infinityMagnitude) (h : (unitsOf m : ℚ) / unitsInOne ≤ d.value) :
    m ≤ d.magnitude := by
  have hround : m ≤ roundMagnitude d.num d.den := by
    rw [roundMagnitude_eq]
    exact le_roundUnits d.den_pos (units_le_value_iff.1 h)
  rw [magnitude_eq, nearestMagnitude]
  omega

/-- A number that is no more than a double is rounded to no larger one. -/
theorem magnitude_le (h : d.value ≤ (unitsOf m : ℚ) / unitsInOne) : d.magnitude ≤ m := by
  have hround : roundMagnitude d.num d.den ≤ m := by
    rw [roundMagnitude_eq]
    exact roundUnits_le d.den_pos (value_le_units_iff.1 h)
  rw [magnitude_eq, nearestMagnitude]
  omega

/-- A number that a double is worth is rounded to it. -/
theorem magnitude_of_value (hm : m ≤ infinityMagnitude) (h : d.value = (unitsOf m : ℚ) / unitsInOne) :
    d.magnitude = m :=
  Nat.le_antisymm (magnitude_le h.le) (le_magnitude hm h.ge)

theorem magnitude_of_zero (hc : d.coefficient = 0) : d.magnitude = 0 := by
  unfold magnitude
  rw [if_pos hc]

/-- An exponent past all doubles makes an infinity of every number but zero. -/
theorem magnitude_of_large (hc : d.coefficient ≠ 0) (hx : 310 < d.exponent) :
    d.magnitude = infinityMagnitude := by
  unfold magnitude
  rw [if_neg hc, if_pos hx]

/-- An exponent before all doubles makes nothing of a number. -/
theorem magnitude_of_small (hc : d.coefficient < 10 ^ n) (hx : n + d.exponent < -325) :
    d.magnitude = 0 := by
  have hcast : (d.coefficient : ℚ) ≤ 10 ^ (n : ℤ) := by
    rw [zpow_natCast]
    exact_mod_cast hc.le
  have hvalue : d.value ≤ (⟨1, -326⟩ : Decimal).value := by
    calc d.value ≤ 10 ^ (n : ℤ) * 10 ^ d.exponent :=
          mul_le_mul_of_nonneg_right hcast (zpow_nonneg (by norm_num) _)
      _ = 10 ^ (n + d.exponent) := (zpow_add₀ (by norm_num) _ _).symm
      _ ≤ 10 ^ (-326 : ℤ) := zpow_le_zpow_right₀ (by norm_num) (by omega)
      _ = (⟨1, -326⟩ : Decimal).value := by
          unfold value
          rw [Nat.cast_one, one_mul]
  have hzero : (⟨1, -326⟩ : Decimal).magnitude = 0 := by decide
  have hmono := magnitude_mono hvalue
  rw [hzero] at hmono
  exact Nat.le_zero.1 hmono

/-- A number with all its digits has its exact value. -/
theorem value_exact (n : ℕ) : (exact n).value = (n : ℚ) / unitsInOne := by
  have hpow : ∀ (k : ℕ) (x : ℤ), x = -k →
      (⟨n * Nat.pow 5 k, x⟩ : Decimal).value = (n : ℚ) / (1 <<< k : ℕ) := by
    intro k x hx
    have hten : (10 : ℚ) ^ k = 2 ^ k * 5 ^ k := by
      rw [← mul_pow]
      norm_num
    have hfive : (5 : ℚ) ^ k ≠ 0 := pow_ne_zero _ (by norm_num)
    have htwo : (2 : ℚ) ^ k ≠ 0 := pow_ne_zero _ (by norm_num)
    rw [hx, value, zpow_neg, zpow_natCast, hten, Nat.one_shiftLeft]
    change ((n * 5 ^ k : ℕ) : ℚ) * _ = _
    push_cast
    field_simp
  unfold exact unitsInOne
  apply hpow
  rfl

/-- The candidate on a grid reads back. -/
theorem magnitude_of_atPlace? {units : ℕ} {place : ℤ} (h : atPlace? tie m units place = some d) :
    d.magnitude = m := by
  unfold atPlace? at h
  dsimp only at h
  split at h
  · next hlower hupper =>
    by_cases htakes : takesLower tie (units * powerOfTen (-place).toNat) (powerOfTen place.toNat <<< 1074)
    · rw [if_pos htakes] at h
      obtain rfl := Option.some.inj h
      exact beq_iff_eq.1 hlower
    · rw [if_neg htakes] at h
      obtain rfl := Option.some.inj h
      exact beq_iff_eq.1 hupper
  · next hlower hupper =>
    obtain rfl := Option.some.inj h
    exact beq_iff_eq.1 hlower
  · next hlower hupper =>
    obtain rfl := Option.some.inj h
    exact beq_iff_eq.1 hupper
  · exact nomatch h

/-- What is found on the grids reads back, and so does the value with all its digits. -/
theorem magnitude_search (hm : m ≤ infinityMagnitude) (tries : ℕ) (place : ℤ) :
    (search tie m (unitsOf m) tries place).magnitude = m := by
  induction tries generalizing place with
  | zero => exact magnitude_of_value hm (value_exact (unitsOf m))
  | succ tries ih =>
    unfold search
    split
    · next d hd => exact magnitude_of_atPlace? hd
    · exact ih (place - 1)

/-- **The shortest decimal of a double reads back.** -/
theorem magnitude_shortest (tie : Tie) (hm : m ≤ infinityMagnitude) : (shortest tie m).magnitude = m := by
  unfold shortest
  by_cases hzero : m = 0
  · rw [if_pos hzero, hzero]
    rfl
  · rw [if_neg hzero]
    exact magnitude_search hm 17 _

end Decimal

/-- A finite double is the one nearest to its shortest decimal. -/
theorem Binary64.ofDecimal_shortest {x : Binary64} (hx : x.isFinite = true) (tie : Tie) :
    ofDecimal x.negative (.shortest tie x.magnitude) = x := by
  have hlt : x.magnitude < infinityMagnitude := of_decide_eq_true hx
  have hround := Decimal.magnitude_shortest tie hlt.le
  obtain ⟨negative, magnitude, h⟩ := x
  unfold ofDecimal ofMagnitude
  simp only [hround, Nat.min_eq_left hlt.le]

end EventSieve
