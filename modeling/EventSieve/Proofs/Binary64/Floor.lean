import EventSieve.Binary64.Basic
import EventSieve.Proofs.Binary64.Rounding

/-!
# The floor of a double

* `unitsOf_wholePart`, `unitsOf_nextWhole`: the whole magnitudes next to a magnitude are worth the multiples
  of one next to what it is worth.
* `Binary64.floor_spec`: **the floor of a finite double is the greatest whole number that is not above
  it.**
-/

namespace EventSieve

variable {k f m : ℕ} {x : Binary64}

/-- A fraction bit is worth one after as many doublings as the exponent has left. -/
theorem two_pow_mul_eq_unitsInOne (hk : k ≤ 1074) : 2 ^ (1074 - k) * 2 ^ k = unitsInOne := by
  have hshift : ∀ {n}, k ≤ n → 2 ^ (n - k) * 2 ^ k = 1 <<< n := by
    intro n hn
    rw [Nat.one_shiftLeft, ← Nat.pow_add, Nat.sub_add_cancel hn]
  exact hshift hk

theorem unitsInOne_dvd_two_pow (hk : 1074 ≤ k) : unitsInOne ∣ 2 ^ k := by
  have hshift : ∀ {n}, n ≤ k → 1 <<< n ∣ 2 ^ k := by
    intro n hn
    rw [Nat.one_shiftLeft]
    exact pow_dvd_pow 2 hn
  exact hshift hk

/-- What a magnitude is worth, also where its fraction bits are carried into the exponent. -/
theorem unitsOf_carry (hf : f ≤ leadingBit) :
    unitsOf ((k + 1) * leadingBit + f) = (leadingBit + f) * 2 ^ k := by
  rcases Nat.lt_or_eq_of_le hf with hlt | rfl
  · exact unitsOf_eq hlt
  · have hnext : (k + 1) * leadingBit + leadingBit = (k + 1 + 1) * leadingBit + 0 := by ring
    rw [hnext, unitsOf_eq (by decide)]
    ring

theorem unitsOf_one : unitsOf (exponentOfOne * leadingBit) = unitsInOne := by decide +kernel

/-- A magnitude below that of one is worth less than one. -/
theorem unitsOf_lt_one (h : m / leadingBit < exponentOfOne) : unitsOf m < unitsInOne := by
  have hlt : m < exponentOfOne * leadingBit := (Nat.div_lt_iff_lt_mul (by decide)).1 h
  rw [← unitsOf_one]
  refine Nat.lt_of_le_of_ne (unitsOf_mono hlt.le) fun heq => ?_
  exact absurd (unitsOf_injective heq) hlt.ne

theorem exponent_ne_zero (h : exponentOfOne ≤ m / leadingBit) : m / leadingBit ≠ 0 :=
  Nat.ne_of_gt (Nat.lt_of_lt_of_le (by decide) h)

/-- A magnitude that has a fraction bit worth one: `c` of these make the leading bit, and it has `q` of
them above it and less than one of them left. -/
theorem exists_fraction (h : exponentOfOne ≤ m / leadingBit) (h' : m / leadingBit < exponentOfWhole) :
    ∃ k c q r, fractionBitOfOne m * 2 ^ k = unitsInOne ∧ leadingBit = c * fractionBitOfOne m ∧
      q < c ∧ r < fractionBitOfOne m ∧ m = (k + 1) * leadingBit + (q * fractionBitOfOne m + r) := by
  obtain ⟨k, f, hf, hdiv, hm⟩ := exists_parts (exponent_ne_zero h)
  rw [hdiv] at h h'
  have hk : 1022 ≤ k := Nat.succ_le_succ_iff.1 h
  have hk' : k ≤ 1074 := Nat.le_of_lt (Nat.succ_lt_succ_iff.1 h')
  have hone : fractionBitOfOne m = 2 ^ (1074 - k) := by
    unfold fractionBitOfOne
    rw [hdiv, Nat.one_shiftLeft]
    exact congrArg (2 ^ ·) (Nat.add_sub_add_right 1074 1 k)
  have hsplit : leadingBit = 2 ^ (52 - (1074 - k)) * fractionBitOfOne m := by
    rw [hone, ← Nat.pow_add, Nat.sub_add_cancel (by omega)]
  have hpos : 0 < fractionBitOfOne m := by
    rw [hone]
    exact Nat.two_pow_pos _
  refine ⟨k, _, f / fractionBitOfOne m, f % fractionBitOfOne m, ?_, hsplit, ?_, Nat.mod_lt f hpos, ?_⟩
  · rw [hone]
    exact two_pow_mul_eq_unitsInOne hk'
  · rwa [Nat.div_lt_iff_lt_mul hpos, ← hsplit]
  · rw [Nat.div_add_mod']
    exact hm

/-- The number of ones in a magnitude that has a fraction bit worth one, and its whole part. -/
theorem wholePart_fraction {one c q r : ℕ} (h : exponentOfOne ≤ m / leadingBit)
    (h' : m / leadingBit < exponentOfWhole) (hone : fractionBitOfOne m = one)
    (hunits : one * 2 ^ k = unitsInOne) (hc : leadingBit = c * one) (hq : q < c) (hr : r < one)
    (hm : m = (k + 1) * leadingBit + (q * one + r)) :
    wholePart m = (k + 1) * leadingBit + q * one ∧ unitsOf m / unitsInOne = c + q := by
  have hpos : 0 < one := Nat.lt_of_le_of_lt (Nat.zero_le r) hr
  have hrest : m % one = r := by
    have hsum : m = ((k + 1) * c + q) * one + r := by rw [hm, hc]; ring
    rw [hsum, Nat.mul_comm, Nat.mul_add_mod, Nat.mod_eq_of_lt hr]
  have hfraction : q * one + r < leadingBit := by
    calc q * one + r < q * one + one := Nat.add_lt_add_left hr _
      _ = (q + 1) * one := by ring
      _ ≤ c * one := Nat.mul_le_mul_right one hq
      _ = leadingBit := hc.symm
  constructor
  · unfold wholePart
    dsimp only
    rw [if_neg (Nat.not_lt.2 h), if_pos h', hone, hrest]
    omega
  · have hworth : unitsOf m = ((c + q) * one + r) * 2 ^ k := by
      rw [hm, unitsOf_eq hfraction, hc]
      ring
    rw [hworth, ← hunits, Nat.mul_div_mul_right _ _ (Nat.two_pow_pos k), Nat.mul_comm,
      Nat.mul_add_div hpos, Nat.div_eq_of_lt hr, Nat.add_zero]

/-- **The whole part** is worth the last multiple of one that is not above. -/
theorem unitsOf_wholePart (m : ℕ) :
    unitsOf (wholePart m) = unitsOf m / unitsInOne * unitsInOne := by
  by_cases h : m / leadingBit < exponentOfOne
  · rw [Nat.div_eq_of_lt (unitsOf_lt_one h), Nat.zero_mul]
    unfold wholePart
    dsimp only
    rw [if_pos h]
    rfl
  by_cases h' : m / leadingBit < exponentOfWhole
  · obtain ⟨k, c, q, r, hunits, hc, hq, hr, hm⟩ := exists_fraction (Nat.le_of_not_lt h) h'
    obtain ⟨hwhole, hdiv⟩ := wholePart_fraction (Nat.le_of_not_lt h) h' rfl hunits hc hq hr hm
    have hle : q * fractionBitOfOne m ≤ leadingBit := by
      rw [hc]
      exact Nat.mul_le_mul_right _ hq.le
    rw [hwhole, hdiv, unitsOf_carry hle, ← hunits, hc]
    ring
  · -- from here on every magnitude is worth a multiple of one
    obtain ⟨k, f, hf, hdiv, hm⟩ := exists_parts (exponent_ne_zero (Nat.le_of_not_lt h))
    have hk : 1074 ≤ k := by
      rw [hdiv] at h'
      exact Nat.succ_le_succ_iff.1 (Nat.le_of_not_lt h')
    have hdvd : unitsInOne ∣ unitsOf m := by
      rw [hm, unitsOf_eq hf]
      exact (unitsInOne_dvd_two_pow hk).mul_left _
    have hwhole : wholePart m = m := by
      unfold wholePart
      dsimp only
      rw [if_neg h, if_neg h']
    rw [hwhole, Nat.div_mul_cancel hdvd]

/-- A magnitude that is not whole has fraction bits worth less than one. -/
theorem lt_exponentOfWhole (h : wholePart m ≠ m) : m / leadingBit < exponentOfWhole := by
  by_contra hhigh
  refine h ?_
  have hlow : ¬ m / leadingBit < exponentOfOne := fun hlt => hhigh (Nat.lt_trans hlt (by decide))
  unfold wholePart
  dsimp only
  rw [if_neg hlow, if_neg hhigh]

/-- **The next whole magnitude** is worth the first multiple of one above. -/
theorem unitsOf_nextWhole (h : wholePart m ≠ m) :
    unitsOf (nextWhole m) = (unitsOf m / unitsInOne + 1) * unitsInOne := by
  unfold nextWhole
  by_cases hlow : m / leadingBit < exponentOfOne
  · rw [if_pos hlow, unitsOf_one, Nat.div_eq_of_lt (unitsOf_lt_one hlow), Nat.zero_add, Nat.one_mul]
  · have hhigh := lt_exponentOfWhole h
    obtain ⟨k, c, q, r, hunits, hc, hq, hr, hm⟩ := exists_fraction (Nat.le_of_not_lt hlow) hhigh
    obtain ⟨hwhole, hdiv⟩ := wholePart_fraction (Nat.le_of_not_lt hlow) hhigh rfl hunits hc hq hr hm
    have hle : q * fractionBitOfOne m + fractionBitOfOne m ≤ leadingBit := by
      rw [hc, ← Nat.succ_mul]
      exact Nat.mul_le_mul_right _ hq
    rw [if_neg hlow, hwhole, hdiv, Nat.add_assoc, unitsOf_carry hle, ← hunits, hc]
    ring

/-- A magnitude that is not whole is worth more than one multiple of one and less than the next. -/
theorem unitsOf_between (h : wholePart m ≠ m) : unitsOf m / unitsInOne * unitsInOne < unitsOf m ∧
    unitsOf m < (unitsOf m / unitsInOne + 1) * unitsInOne := by
  refine ⟨Nat.lt_of_le_of_ne (Nat.div_mul_le_self _ _) fun heq => h (unitsOf_injective ?_), ?_⟩
  · rw [unitsOf_wholePart, heq]
  · exact (Nat.div_lt_iff_lt_mul unitsInOne_pos).1 (Nat.lt_succ_self _)

theorem wholePart_le (m : ℕ) : wholePart m ≤ m := by
  unfold wholePart
  dsimp only
  split
  · exact Nat.zero_le m
  · split
    · exact Nat.sub_le m _
    · exact Nat.le_refl m

/-- The next whole magnitude is finite. -/
theorem nextWhole_lt (h : wholePart m ≠ m) : nextWhole m < infinityMagnitude := by
  unfold nextWhole
  by_cases hlow : m / leadingBit < exponentOfOne
  · rw [if_pos hlow]
    decide
  · rw [if_neg hlow]
    have hhigh := lt_exponentOfWhole h
    obtain ⟨-, c, q, r, -, hc, hq, -, -⟩ := exists_fraction (Nat.le_of_not_lt hlow) hhigh
    have hone : fractionBitOfOne m ≤ leadingBit := by
      rw [hc]
      exact Nat.le_mul_of_pos_left _ (Nat.lt_of_le_of_lt (Nat.zero_le q) hq)
    have hm : m < exponentOfWhole * leadingBit := (Nat.div_lt_iff_lt_mul (by decide)).1 hhigh
    calc wholePart m + fractionBitOfOne m < exponentOfWhole * leadingBit + leadingBit :=
          Nat.add_lt_add_of_lt_of_le (Nat.lt_of_le_of_lt (wholePart_le m) hm) hone
      _ ≤ infinityMagnitude := by decide

namespace Binary64

theorem extent?_of_isFinite (hx : x.isFinite = true) : x.extent? = some (.at x.units) := by
  have hlt : x.magnitude < infinityMagnitude := of_decide_eq_true hx
  have hnan : ¬ x.isNaN = true := fun h => Nat.lt_asymm hlt (of_decide_eq_true h)
  unfold extent?
  rw [if_neg hnan, if_pos hx]

/-- A finite magnitude of either sign. -/
theorem extent?_ofMagnitude (negative : Bool) (hm : m < infinityMagnitude) :
    (ofMagnitude negative m).extent? =
      some (.at (if negative then -(unitsOf m : ℤ) else unitsOf m)) := by
  have hmagnitude : (ofMagnitude negative m).magnitude = m := Nat.min_eq_left hm.le
  have hfinite : (ofMagnitude negative m).isFinite = true := by
    unfold isFinite
    rw [hmagnitude]
    exact decide_eq_true hm
  rw [extent?_of_isFinite hfinite, units, hmagnitude]
  rfl

/-- A double of a whole magnitude is a whole number. -/
theorem exists_units_eq (h : wholePart x.magnitude = x.magnitude) :
    ∃ n : ℤ, x.units = n * unitsInOne := by
  have hwhole := unitsOf_wholePart x.magnitude
  rw [h] at hwhole
  unfold units
  rw [hwhole, Nat.cast_mul]
  cases x.negative with
  | true =>
    rw [if_pos rfl, ← neg_mul]
    exact ⟨_, rfl⟩
  | false => exact ⟨_, rfl⟩

/-- The floor of a finite double that is not whole is the whole number next below it. -/
theorem floor_of_not_whole (hx : x.isFinite = true) (h : wholePart x.magnitude ≠ x.magnitude) :
    ∃ n : ℤ, x.floor.extent? = some (.at (n * unitsInOne)) ∧ n * unitsInOne < x.units ∧
      x.units < (n + 1) * unitsInOne := by
  have hfinite : x.magnitude < infinityMagnitude := of_decide_eq_true hx
  have hnext := unitsOf_nextWhole h
  have hwhole := unitsOf_wholePart x.magnitude
  obtain ⟨hlow, hhigh⟩ := unitsOf_between h
  unfold floor units
  rw [if_neg h]
  set q := unitsOf x.magnitude / unitsInOne
  zify at hlow hhigh
  cases x.negative with
  | true =>
    -- below zero the whole magnitude above is the number below
    rw [if_pos rfl, if_pos rfl, extent?_ofMagnitude true (nextWhole_lt h), if_pos rfl, hnext]
    refine ⟨-(q + 1), ?_, ?_, ?_⟩
    · push_cast
      rw [neg_mul]
    · linarith
    · linarith
  | false =>
    have hlt := Nat.lt_of_le_of_lt (wholePart_le x.magnitude) hfinite
    rw [if_neg (by decide), if_neg (by decide), extent?_ofMagnitude false hlt, if_neg (by decide), hwhole]
    refine ⟨q, ?_, hlow, hhigh⟩
    rw [Nat.cast_mul]

/-- **The floor of a finite double** is the whole number that is not above it and less than one below. -/
theorem floor_spec (hx : x.isFinite = true) :
    ∃ n : ℤ, x.floor.extent? = some (.at (n * unitsInOne)) ∧ n * unitsInOne ≤ x.units ∧
      x.units < (n + 1) * unitsInOne := by
  by_cases h : wholePart x.magnitude = x.magnitude
  · -- a whole double is its own floor
    have hfloor : x.floor = x := if_pos h
    have hpos : (0 : ℤ) < unitsInOne := by exact_mod_cast unitsInOne_pos
    obtain ⟨n, hn⟩ := exists_units_eq h
    refine ⟨n, by rw [hfloor, extent?_of_isFinite hx, hn], hn.ge, ?_⟩
    rw [hn, add_mul, one_mul]
    exact lt_add_of_pos_right _ hpos
  · obtain ⟨n, hfloor, hn, hn'⟩ := floor_of_not_whole hx h
    exact ⟨n, hfloor, hn.le, hn'⟩

end Binary64

end EventSieve
