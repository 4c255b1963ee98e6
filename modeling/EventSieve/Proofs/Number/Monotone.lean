import EventSieve.Proofs.Binary64.ReadBack
import EventSieve.Proofs.Number.Numerals
import EventSieve.Proofs.Number.Order

/-!
# Integers of any length are read in their order

An integer that 128 bits hold is read as it is, and any other one as the double nearest to it. Both
ends of the range, `2¹²⁷` and `-2¹²⁷`, are doubles, so rounding, which keeps the order, carries no integer over
them.

* `signedWorth`: the value of a double by its sign and magnitude.
* `signedWorth_mono`: **the nearest double keeps the order of decimal numbers**, whatever their signs.
* `Number.ofInteger`: the number that the texts of an integer are read as (`read?_spelled`).
* `Number.readValue_mono`: its exact value keeps the order of the integers.
* `Number.compare?_of_spellsInteger`: **the numbers that two integers are read as are never in the wrong order.**
-/

namespace EventSieve

open Text

variable {s t digits : List Char} {m n v : ℤ} {j k : ℕ} {a b negative : Bool} {d e : Decimal}

/-- The value of the double of a sign and a magnitude that is not past the one of the infinities. -/
def signedWorth (negative : Bool) (m : ℕ) : ExtendedRat :=
  if m < infinityMagnitude then ((withSign negative (worth m) : ℚ) : WithTop ℚ)
  else if negative then ⊥ else ⊤

/-- The double nearest to a decimal number has the value of its sign and magnitude. -/
theorem value?_ofDecimal (negative : Bool) (d : Decimal) :
    (Number.float (.ofDecimal negative d)).value? = some (signedWorth negative d.magnitude) := by
  have hmagnitude := Binary64.magnitude_ofDecimal negative d
  have hnan := Binary64.isNaN_ofDecimal negative d
  unfold signedWorth
  by_cases h : d.magnitude < infinityMagnitude
  · have hfinite : (Binary64.ofDecimal negative d).isFinite = true := by
      simp [Binary64.isFinite, hmagnitude, h]
    rw [if_pos h, Binary64.value?_float hfinite, Binary64.value_eq, hmagnitude]
    rfl
  · have hfinite : (Binary64.ofDecimal negative d).isFinite = false := by
      simp [Binary64.isFinite, hmagnitude, h]
    simp only [Number.value?, hnan, hfinite, if_neg h, Bool.false_eq_true, if_false]
    cases negative <;> rfl

/-- Of the doubles without a minus a larger magnitude is no smaller one. -/
theorem signedWorth_false_mono : Monotone (signedWorth false) := by
  intro j k h
  unfold signedWorth
  by_cases hk : k < infinityMagnitude
  · have hworth : withSign false (worth j) ≤ withSign false (worth k) := worth_strictMono.monotone h
    rw [if_pos hk, if_pos (by omega)]
    simpa using hworth
  · rw [if_neg hk]
    exact le_top

/-- Of the doubles with a minus a larger magnitude is no larger one. -/
theorem signedWorth_true_anti : Antitone (signedWorth true) := by
  intro j k h
  unfold signedWorth
  by_cases hk : k < infinityMagnitude
  · have hworth : withSign true (worth k) ≤ withSign true (worth j) :=
      neg_le_neg (worth_strictMono.monotone h)
    rw [if_pos hk, if_pos (by omega)]
    simpa using hworth
  · rw [if_neg hk]
    exact bot_le

/-- The two zeros have one value. -/
theorem signedWorth_zero (negative : Bool) : signedWorth negative 0 = ((0 : ℚ) : WithTop ℚ) := by
  have hworth : worth 0 = 0 := by simp [worth, unitsOf]
  cases negative <;> simp [signedWorth, withSign, hworth]

/-- **The nearest double keeps the order of decimal numbers**, whatever their signs. -/
theorem signedWorth_mono (h : withSign a d.value ≤ withSign b e.value) :
    signedWorth a d.magnitude ≤ signedWorth b e.magnitude := by
  have hd := d.value_nonneg
  have he := e.value_nonneg
  cases a with
  | false =>
    cases b with
    | false => exact signedWorth_false_mono (Decimal.magnitude_mono h)
    | true =>
      -- a number is at most one with a minus only if both are zero
      have hsum : d.value ≤ -e.value := h
      have hzero : ∀ {x : Decimal}, x.value ≤ 0 → x.magnitude = 0 := by
        intro x hx
        have hle : x.magnitude ≤ 0 := Decimal.magnitude_le (by simpa [unitsOf] using hx)
        omega
      rw [hzero (by linarith), hzero (by linarith), signedWorth_zero, signedWorth_zero]
  | true =>
    cases b with
    | false =>
      -- zero lies between the two
      calc signedWorth true d.magnitude ≤ signedWorth true 0 := signedWorth_true_anti (Nat.zero_le _)
        _ = signedWorth false 0 := by rw [signedWorth_zero, signedWorth_zero]
        _ ≤ signedWorth false e.magnitude := signedWorth_false_mono (Nat.zero_le _)
    | true =>
      have hle : e.value ≤ d.value := neg_le_neg_iff.1 h
      exact signedWorth_true_anti (Decimal.magnitude_mono hle)

namespace Number

/-- The number that the texts of an integer are read as: the integer, or the double nearest to it if 128 bits
do not hold it. -/
def ofInteger (v : ℤ) : Number :=
  if fitsWord v then .integer v else .float (.ofDecimal (v < 0) ⟨v.natAbs, 0⟩)

/-- The sign of an integer that 128 bits do not hold is that of the integer. -/
theorem sign_of_not_fitsWord (h : fitsWord (signed negative k) = false) :
    decide (signed negative k < 0) = negative := by
  cases negative with
  | false => simp [signed]
  | true =>
    have hk : k ≠ 0 := by
      rintro rfl
      exact absurd h (by decide)
    simp [signed]
    omega

/-- **The texts of an integer are read as one number**, which the integer determines. -/
theorem read?_spelled (h : SpellsInteger s v) : read? s = some (ofInteger v) := by
  unfold ofInteger
  by_cases hv : fitsWord v = true
  · rw [if_pos hv]
    exact read?_of_spellsInteger h hv
  · rw [Bool.not_eq_true] at hv
    rw [hv, if_neg Bool.false_ne_true]
    cases h with
    | @mk sign digits negative hs hne hd hf =>
      have hnumeral : numeralOf s = sign ++ digits := numeralOf_integer hs hd hf
      have hspelled : SpellsInteger (numeralOf s) (signed negative (digitsValue digits)) :=
        .mk hs hne hd ((filter_numeralOf s).trans hnumeral)
      -- digits alone are a mantissa without a point and without an exponent
      have hdecimal := DecimalNumeral.mk hs (.whole hne hd) .none
      rw [List.append_nil, ← hnumeral] at hdecimal
      have hdigits : (signed negative (digitsValue digits)).natAbs = digitsValue digits := by
        cases negative <;> simp [signed]
      rw [read?_of_decimalNumeral hdecimal, sign_of_not_fitsWord hv, hdigits]
      · rfl
      · intro w hw
        rwa [hw.unique hspelled]

/-- The exact value of an integer. -/
def exactValue (v : ℤ) : ExtendedRat := ((v : ℚ) : WithTop ℚ)

/-- The exact value of the double nearest to an integer. -/
def nearestValue (v : ℤ) : ExtendedRat := signedWorth (v < 0) (Decimal.mk v.natAbs 0).magnitude

/-- The exact value of the number that an integer is read as. -/
def readValue (v : ℤ) : ExtendedRat := if fitsWord v then exactValue v else nearestValue v

theorem value?_ofInteger (v : ℤ) : (ofInteger v).value? = some (readValue v) := by
  unfold ofInteger readValue
  split
  · rfl
  · exact value?_ofDecimal _ _

theorem exactValue_strictMono : StrictMono exactValue := integerValue_strictMono

/-- An integer is its sign and its digits. -/
theorem withSign_natAbs (v : ℤ) : withSign (v < 0) (Decimal.mk v.natAbs 0).value = v := by
  have hvalue : (Decimal.mk v.natAbs 0).value = |(v : ℚ)| := by
    simp [Decimal.value, Nat.cast_natAbs]
  rw [hvalue]
  unfold withSign
  by_cases h : v < 0
  · have hneg : (v : ℚ) < 0 := by exact_mod_cast h
    simp [h, abs_of_neg hneg]
  · have hnonneg : (0 : ℚ) ≤ v := by exact_mod_cast not_lt.1 h
    simp [h, abs_of_nonneg hnonneg]

theorem nearestValue_mono : Monotone nearestValue := by
  intro m n h
  apply signedWorth_mono
  rw [withSign_natAbs, withSign_natAbs]
  exact_mod_cast h

/-- The limit of the integers is a double, of either sign. -/
theorem signedWorth_limit (negative : Bool) :
    signedWorth negative (Decimal.mk (2 ^ 127) 0).magnitude = ((withSign negative (2 ^ 127) : ℚ) : WithTop ℚ) := by
  have hunits : unitsOf 0x47E0000000000000 = 2 ^ 127 * unitsInOne := by decide +kernel
  have hworth : worth 0x47E0000000000000 = 2 ^ 127 := by
    rw [worth, Binary64.units_div hunits, Nat.cast_pow]
    rfl
  have hmagnitude : (Decimal.mk (2 ^ 127) 0).magnitude = 0x47E0000000000000 := by
    apply Decimal.magnitude_of_value (by decide)
    rw [← worth, hworth, Decimal.value, zpow_zero, mul_one, Nat.cast_pow]
    rfl
  rw [hmagnitude, signedWorth, if_pos (by decide), hworth]

/-- **Rounding leaves the ends of the range where they are.** -/
theorem nearestValue_limit :
    nearestValue (2 ^ 127) = exactValue (2 ^ 127) ∧ nearestValue (-2 ^ 127) = exactValue (-2 ^ 127) := by
  have hpos : decide ((2 : ℤ) ^ 127 < 0) = false := by decide
  have hneg : decide (-(2 : ℤ) ^ 127 < 0) = true := by decide
  have habs : ((2 : ℤ) ^ 127).natAbs = 2 ^ 127 := by decide
  constructor
  · rw [nearestValue, hpos, habs, signedWorth_limit, exactValue, Int.cast_pow]
    rfl
  · rw [nearestValue, hneg, Int.natAbs_neg, habs, signedWorth_limit, exactValue, Int.cast_neg, Int.cast_pow]
    rfl

/-- **An integer that 128 bits do not hold is past the range or before it**, and so is what it is read as. -/
theorem readValue_beyond (h : fitsWord v = false) :
    2 ^ 127 ≤ v ∧ exactValue (2 ^ 127) ≤ readValue v ∨ v < -2 ^ 127 ∧ readValue v ≤ exactValue (-2 ^ 127) := by
  obtain ⟨hlarge, hsmall⟩ := nearestValue_limit
  have hread : readValue v = nearestValue v := by
    rw [readValue, h, if_neg Bool.false_ne_true]
  have hrange := mt fitsWord_iff.2 (Bool.eq_false_iff.1 h)
  rw [hread, ← hlarge, ← hsmall]
  by_cases hv : v < -2 ^ 127
  · exact .inr ⟨hv, nearestValue_mono hv.le⟩
  · have hv' : 2 ^ 127 ≤ v := by omega
    exact .inl ⟨hv', nearestValue_mono hv'⟩

theorem readValue_of_fitsWord (h : fitsWord v = true) : readValue v = exactValue v := by
  rw [readValue, if_pos h]

/-- **What integers are read as keeps their order**, also where one of them is rounded. -/
theorem readValue_mono : Monotone readValue := by
  intro m n h
  by_cases hm : fitsWord m = true
  · have hm' := fitsWord_iff.1 hm
    rw [readValue_of_fitsWord hm]
    by_cases hn : fitsWord n = true
    · rw [readValue_of_fitsWord hn]
      exact exactValue_strictMono.monotone h
    · obtain ⟨-, hle⟩ | ⟨hlt, -⟩ := readValue_beyond (Bool.eq_false_iff.2 hn)
      · exact le_trans (exactValue_strictMono.monotone hm'.2.le) hle
      · omega
  · rw [Bool.not_eq_true] at hm
    by_cases hn : fitsWord n = true
    · have hn' := fitsWord_iff.1 hn
      rw [readValue_of_fitsWord hn]
      obtain ⟨hle, -⟩ | ⟨-, hle⟩ := readValue_beyond hm
      · omega
      · exact le_trans hle (exactValue_strictMono.monotone hn'.1)
    · rw [readValue, readValue, hm, Bool.eq_false_iff.2 hn]
      exact nearestValue_mono h

/-- An integer in range is read as less than those after it in range, and than all past it. -/
theorem readValue_lt (hm : fitsWord m = true) (h : m < n ∧ n < 2 ^ 127 ∨ 2 ^ 127 ≤ n) :
    readValue m < readValue n := by
  have hm' := fitsWord_iff.1 hm
  rw [readValue_of_fitsWord hm]
  rcases h with ⟨hlt, hn⟩ | hn
  · rw [readValue_of_fitsWord (fitsWord_iff.2 (by omega))]
    exact exactValue_strictMono hlt
  · have hn' : fitsWord n = false := Bool.eq_false_iff.2 fun hfits => by
      have := fitsWord_iff.1 hfits
      omega
    obtain ⟨-, hle⟩ | ⟨hlt, -⟩ := readValue_beyond hn'
    · exact lt_of_lt_of_le (exactValue_strictMono hm'.2) hle
    · omega

theorem inRange_ofInteger (v : ℤ) : (ofInteger v).InRange := by
  unfold ofInteger
  split
  · assumption
  · trivial

/-- **The order of integers survives their reading**, however long they are: the texts of two integers are
both read as numbers, and that of the smaller integer as one that is less or equal. It is less if the smaller
integer is in the range of 128 bits, and the larger one is another one in the range or past it. -/
theorem compare?_of_spellsInteger (hs : SpellsInteger s m) (ht : SpellsInteger t n) (h : m ≤ n) :
    ∃ a b, read? s = some a ∧ read? t = some b ∧
      (a.compare? b = some .lt ∨ a.compare? b = some .eq) ∧
      (-2 ^ 127 ≤ m → m < 2 ^ 127 → m < n ∧ n < 2 ^ 127 ∨ 2 ^ 127 ≤ n → a.compare? b = some .lt) := by
  have hcompare := compare?_eq (inRange_ofInteger m) (inRange_ofInteger n) (value?_ofInteger m)
    (value?_ofInteger n)
  refine ⟨ofInteger m, ofInteger n, read?_spelled hs, read?_spelled ht, ?_, ?_⟩
  · rw [hcompare]
    rcases (readValue_mono h).lt_or_eq with hlt | heq
    · exact .inl (congrArg some (compare_lt_iff_lt.2 hlt))
    · exact .inr (congrArg some (compare_eq_iff_eq.2 heq))
  · intro hlow hhigh hn
    rw [hcompare]
    have hlt := readValue_lt (fitsWord_iff.2 ⟨hlow, hhigh⟩) hn
    exact congrArg some (compare_lt_iff_lt.2 hlt)

/-- The last integer in range is less than the first one past it, which is read as a double. -/
theorem compare?_of_spellsInteger_limit :
    ∃ a b, read? "170,141183460469231731687303715884105727".toList = some a ∧
      read? "+00170141183460469231731687303715884105728,".toList = some b ∧ a.compare? b = some .lt := by
  have hlast : SpellsInteger "170,141183460469231731687303715884105727".toList (2 ^ 127 - 1) :=
    @SpellsInteger.mk _ _ "170141183460469231731687303715884105727".toList _ .none (by decide) (by decide)
      (by decide)
  have hnext : SpellsInteger "+00170141183460469231731687303715884105728,".toList (2 ^ 127) :=
    @SpellsInteger.mk _ _ "00170141183460469231731687303715884105728".toList _ .plus (by decide) (by decide)
      (by decide)
  obtain ⟨a, b, ha, hb, -, hless⟩ := compare?_of_spellsInteger hlast hnext (by omega)
  exact ⟨a, b, ha, hb, hless (by omega) (by omega) (.inr (by omega))⟩

/-- Before the range different integers may become one double. -/
example : (ofInteger (-2 ^ 127 - 1)).compare? (ofInteger (-2 ^ 127)) = some .eq := by decide +kernel

end Number

end EventSieve
