import Mathlib.Data.Nat.Log
import Mathlib.Tactic.Linarith
import Mathlib.Tactic.Ring
import EventSieve.Binary64.Basic

/-!
# What rounding keeps

A quotient is rounded to a whole multiple of a power of two that grows with the quotient. Where the power
changes the multiples meet, so that the rounding keeps the order of all quotients.

* `halfEven_mono`: a larger quotient is rounded to no smaller whole number.
* `roundUnits`: the magnitude nearest to a quotient of units.
* `roundUnits_mono`: **a larger quotient is rounded to no smaller magnitude**, in particular equal
  quotients are rounded alike, in whatever terms they are given.
* `roundUnits_unitsOf`: what a magnitude is worth is rounded to that magnitude.
* `exists_unitsOf`: the integers below `2⁵³` are doubles.
-/

namespace EventSieve

variable {a b a' b' m n : ℕ}

/-- The nearest whole number is at most half off, and where it is exactly half off it is even. -/
theorem halfEven_spec (a : ℕ) (hb : 0 < b) :
    2 * a ≤ (2 * halfEven a b + 1) * b ∧ 2 * halfEven a b * b ≤ 2 * a + b ∧
    (2 * a = (2 * halfEven a b + 1) * b ∨ 2 * halfEven a b * b = 2 * a + b →
      halfEven a b % 2 = 0) := by
  have hdiv : b * (a / b) + a % b = a := Nat.div_add_mod a b
  have hmod : a % b < b := Nat.mod_lt a hb
  unfold halfEven
  dsimp only
  set q := a / b
  set r := a % b
  have hlow : (2 * q + 1) * b = 2 * (b * q) + b := by ring
  have hhigh : 2 * (q + 1) * b = 2 * (b * q) + 2 * b := by ring
  have hhigh' : (2 * (q + 1) + 1) * b = 2 * (b * q) + 3 * b := by ring
  have hmid : 2 * q * b = 2 * (b * q) := by ring
  by_cases hless : 2 * r < b
  · rw [if_pos hless, hlow, hmid]
    omega
  · rw [if_neg hless]
    by_cases hmore : b < 2 * r
    · rw [if_pos hmore, hhigh, hhigh']
      omega
    · rw [if_neg hmore]
      -- half way between two whole numbers
      rcases Nat.mod_two_eq_zero_or_one q with hq | hq
      · have heven : q + q % 2 = q := by omega
        rw [heven, hlow, hmid]
        omega
      · have hodd : q + q % 2 = q + 1 := by omega
        rw [hodd, hhigh, hhigh']
        omega

/-- **A larger quotient is rounded to no smaller whole number.** -/
theorem halfEven_mono (hb : 0 < b) (hb' : 0 < b') (h : a * b' ≤ a' * b) :
    halfEven a b ≤ halfEven a' b' := by
  obtain ⟨-, hlow, hodd⟩ := halfEven_spec a hb
  obtain ⟨hhigh, -, hodd'⟩ := halfEven_spec a' hb'
  set q := halfEven a b
  set q' := halfEven a' b'
  by_contra hq
  have hnext : q' + 1 ≤ q := by omega
  -- both quotients then lie half way between the two whole numbers
  have hpos : 0 < b * b' := Nat.mul_pos hb hb'
  have h₁ : 2 * q * (b * b') ≤ 2 * (a * b') + b * b' := by
    calc 2 * q * (b * b') = 2 * q * b * b' := by ring
      _ ≤ (2 * a + b) * b' := Nat.mul_le_mul_right b' hlow
      _ = 2 * (a * b') + b * b' := by ring
  have h₂ : 2 * (a' * b) ≤ (2 * q' + 1) * (b * b') := by
    calc 2 * (a' * b) = 2 * a' * b := by ring
      _ ≤ (2 * q' + 1) * b' * b := Nat.mul_le_mul_right b hhigh
      _ = (2 * q' + 1) * (b * b') := by ring
  have hsum : 2 * q * (b * b') ≤ (2 * q' + 2) * (b * b') := by linarith
  have hle : 2 * q ≤ 2 * q' + 2 := Nat.le_of_mul_le_mul_right hsum hpos
  have heq : q = q' + 1 := by omega
  rw [heq] at h₁ hlow
  have hup : 2 * (q' + 1) * b = 2 * a + b := by
    apply Nat.le_antisymm hlow
    refine Nat.le_of_mul_le_mul_right ?_ hb'
    calc (2 * a + b) * b' = 2 * (a * b') + b * b' := by ring
      _ ≤ (2 * q' + 1) * (b * b') + b * b' := by linarith
      _ = 2 * (q' + 1) * b * b' := by ring
  have hdown : 2 * a' = (2 * q' + 1) * b' := by
    apply Nat.le_antisymm hhigh
    refine Nat.le_of_mul_le_mul_right ?_ hb
    calc (2 * q' + 1) * b' * b = 2 * (q' + 1) * (b * b') - b * b' := by
          rw [show 2 * (q' + 1) * (b * b') = (2 * q' + 1) * (b * b') + b * b' by ring, Nat.add_sub_cancel]
          ring
      _ ≤ 2 * (a * b') := by omega
      _ ≤ 2 * a' * b := by linarith
  have heven := hodd (.inr (by rw [heq]; exact hup))
  have heven' := hodd' (.inl hdown)
  omega

/-- The magnitude nearest to `a / b` units. -/
def roundUnits (a b : ℕ) : ℕ :=
  (Nat.log2 (a / b) - 52) * leadingBit + halfEven a (b <<< (Nat.log2 (a / b) - 52))

theorem leadingBit_eq : leadingBit = 2 ^ 52 := by norm_num

/-- A multiple of a shifted denominator. -/
theorem mul_shiftLeft (a b n : ℕ) : a * (b <<< n) = (a * 2 ^ n) * b := by
  rw [Nat.shiftLeft_eq]
  ring

theorem shiftLeft_pos (hb : 0 < b) (n : ℕ) : 0 < b <<< n := by
  rw [Nat.shiftLeft_eq]
  exact Nat.mul_pos hb (Nat.two_pow_pos n)

/-- A quotient that is not small holds as many multiples as the leading bit says. -/
theorem leadingBit_mul_le (hb : 0 < b) (hshift : 0 < Nat.log2 (a / b) - 52) :
    leadingBit * (b <<< (Nat.log2 (a / b) - 52)) ≤ a := by
  have hne : a / b ≠ 0 := by
    intro hzero
    rw [hzero, Nat.log2_zero] at hshift
    omega
  set shift := Nat.log2 (a / b) - 52
  have hle : 2 ^ (shift + 52) ≤ a / b := by
    refine Nat.le_trans (Nat.pow_le_pow_right (by decide) ?_) (Nat.log2_self_le hne)
    omega
  rw [mul_shiftLeft, leadingBit_eq]
  calc 2 ^ 52 * 2 ^ shift * b = 2 ^ (shift + 52) * b := by ring
    _ ≤ a := (Nat.le_div_iff_mul_le hb).1 hle

/-- A quotient is rounded to at most twice the leading bit, and to no less than it unless the quotient
is small. -/
theorem halfEven_shift (a : ℕ) (hb : 0 < b) :
    halfEven a (b <<< (Nat.log2 (a / b) - 52)) ≤ 2 * leadingBit ∧
    (0 < Nat.log2 (a / b) - 52 → leadingBit ≤ halfEven a (b <<< (Nat.log2 (a / b) - 52))) := by
  have hstart := leadingBit_mul_le hb (a := a)
  set shift := Nat.log2 (a / b) - 52
  have hpos := shiftLeft_pos hb shift
  constructor
  · have hlt : a / b < 2 ^ (shift + 53) := by
      refine Nat.lt_of_lt_of_le Nat.lt_log2_self (Nat.pow_le_pow_right (by decide) ?_)
      omega
    have hle : a ≤ 2 ^ (shift + 53) * b := Nat.le_of_lt ((Nat.div_lt_iff_lt_mul hb).1 hlt)
    have hround : halfEven a (b <<< shift) ≤ halfEven (2 * leadingBit * 1) 1 := by
      refine halfEven_mono hpos Nat.one_pos ?_
      rw [Nat.mul_one, Nat.mul_one, mul_shiftLeft, leadingBit_eq]
      calc a ≤ 2 ^ (shift + 53) * b := hle
        _ = 2 * 2 ^ 52 * 2 ^ shift * b := by ring
    rwa [halfEven_mul _ Nat.one_pos] at hround
  · intro hshift
    have hround : halfEven (leadingBit * 1) 1 ≤ halfEven a (b <<< shift) := by
      refine halfEven_mono Nat.one_pos hpos ?_
      rw [Nat.mul_one, Nat.mul_one]
      exact hstart hshift
    rwa [halfEven_mul _ Nat.one_pos] at hround

/-- **A larger quotient is rounded to no smaller magnitude.** -/
theorem roundUnits_mono (hb : 0 < b) (hb' : 0 < b') (h : a * b' ≤ a' * b) :
    roundUnits a b ≤ roundUnits a' b' := by
  have hdiv : a / b ≤ a' / b' := by
    rw [Nat.le_div_iff_mul_le hb']
    refine Nat.le_of_mul_le_mul_right ?_ hb
    calc a / b * b' * b = a / b * b * b' := by ring
      _ ≤ a * b' := Nat.mul_le_mul_right b' (Nat.div_mul_le_self a b)
      _ ≤ a' * b := h
  have hlog : Nat.log2 (a / b) ≤ Nat.log2 (a' / b') := by
    rw [Nat.log2_eq_log_two, Nat.log2_eq_log_two]
    exact Nat.log_mono_right hdiv
  obtain ⟨hhigh, -⟩ := halfEven_shift a hb
  obtain ⟨-, hlow⟩ := halfEven_shift a' hb'
  unfold roundUnits
  set shift := Nat.log2 (a / b) - 52
  set shift' := Nat.log2 (a' / b') - 52
  have hshift : shift ≤ shift' := by omega
  rcases Nat.eq_or_lt_of_le hshift with heq | hlt
  · -- in one binade the multiples are compared
    have hround : halfEven a (b <<< shift') ≤ halfEven a' (b' <<< shift') := by
      refine halfEven_mono (shiftLeft_pos hb _) (shiftLeft_pos hb' _) ?_
      rw [mul_shiftLeft, mul_shiftLeft]
      calc a * 2 ^ shift' * b' = 2 ^ shift' * (a * b') := by ring
        _ ≤ 2 ^ shift' * (a' * b) := Nat.mul_le_mul_left _ h
        _ = a' * 2 ^ shift' * b := by ring
    rw [heq]
    omega
  · -- the end of one binade is the start of the next
    have hstart := hlow (by omega)
    have hnext : (shift + 1) * leadingBit ≤ shift' * leadingBit := Nat.mul_le_mul_right _ hlt
    have hsucc : (shift + 1) * leadingBit = shift * leadingBit + leadingBit := by ring
    omega

/-- A magnitude above the smallest ones is an exponent and a fraction. -/
theorem exists_parts (h : m / leadingBit ≠ 0) :
    ∃ k f, f < leadingBit ∧ m / leadingBit = k + 1 ∧ m = (k + 1) * leadingBit + f := by
  obtain ⟨k, hk⟩ := Nat.exists_eq_add_one_of_ne_zero h
  refine ⟨k, m % leadingBit, Nat.mod_lt m (by decide), hk, ?_⟩
  rw [← hk, Nat.mul_comm]
  exact (Nat.div_add_mod m leadingBit).symm

/-- What a magnitude above the smallest ones is worth. -/
theorem unitsOf_eq {k f : ℕ} (hf : f < leadingBit) :
    unitsOf ((k + 1) * leadingBit + f) = (leadingBit + f) * 2 ^ k := by
  have hpos : 0 < leadingBit := by decide
  have hquot : ((k + 1) * leadingBit + f) / leadingBit = k + 1 := by
    rw [Nat.mul_comm, Nat.mul_add_div hpos, Nat.div_eq_of_lt hf]
  have hrest : ((k + 1) * leadingBit + f) % leadingBit = f := by
    rw [Nat.mul_comm, Nat.mul_add_mod, Nat.mod_eq_of_lt hf]
  unfold unitsOf
  rw [hquot, hrest]
  dsimp only
  rw [if_neg (Nat.succ_ne_zero k), Nat.add_sub_cancel, Nat.shiftLeft_eq]

/-- The position of the highest bit of what a magnitude above the smallest ones is worth. -/
theorem log2_worth {k f : ℕ} (hf : f < leadingBit) : Nat.log2 ((leadingBit + f) * 2 ^ k) = k + 52 := by
  rw [Nat.log2_eq_log_two]
  refine Nat.log_eq_of_pow_le_of_lt_pow ?_ ?_
  · calc 2 ^ (k + 52) = leadingBit * 2 ^ k := by rw [leadingBit_eq]; ring
      _ ≤ (leadingBit + f) * 2 ^ k := Nat.mul_le_mul_right _ (Nat.le_add_right _ _)
  · calc (leadingBit + f) * 2 ^ k < (leadingBit + leadingBit) * 2 ^ k :=
        Nat.mul_lt_mul_of_pos_right (by omega) (Nat.two_pow_pos k)
      _ = 2 ^ (k + 52 + 1) := by rw [leadingBit_eq]; ring

/-- The smallest magnitudes are worth themselves, and rounded to them. -/
theorem roundUnits_small (hm : m < leadingBit) (hb : 0 < b) : roundUnits (m * b) b = m := by
  have hlog : Nat.log2 m - 52 = 0 := by
    by_cases hzero : m = 0
    · rw [hzero, Nat.log2_zero]
    · have hlt : Nat.log2 m < 52 := (Nat.log2_lt hzero).2 (leadingBit_eq ▸ hm)
      omega
  unfold roundUnits
  rw [Nat.mul_div_cancel _ hb, hlog, Nat.shiftLeft_zero, halfEven_mul _ hb, Nat.zero_mul, Nat.zero_add]

/-- What a larger magnitude is worth is rounded to its exponent and fraction. -/
theorem roundUnits_worth {k f : ℕ} (hf : f < leadingBit) (hb : 0 < b) :
    roundUnits ((leadingBit + f) * 2 ^ k * b) b = (k + 1) * leadingBit + f := by
  have hround : halfEven ((leadingBit + f) * 2 ^ k * b) (b <<< k) = leadingBit + f := by
    rw [← mul_shiftLeft]
    exact halfEven_mul _ (shiftLeft_pos hb k)
  unfold roundUnits
  rw [Nat.mul_div_cancel _ hb, log2_worth hf, Nat.add_sub_cancel, hround]
  ring

/-- **What a magnitude is worth is rounded to it.** -/
theorem roundUnits_unitsOf (m : ℕ) (hb : 0 < b) : roundUnits (unitsOf m * b) b = m := by
  by_cases hexp : m / leadingBit = 0
  · have hm : m < leadingBit := (Nat.div_eq_zero_iff_lt (by decide)).1 hexp
    have hunits : unitsOf m = m := (if_pos hexp).trans (Nat.mod_eq_of_lt hm)
    rw [hunits, roundUnits_small hm hb]
  · obtain ⟨k, f, hf, -, rfl⟩ := exists_parts hexp
    rw [unitsOf_eq hf, roundUnits_worth hf hb]

/-- At or above what a magnitude is worth, rounding gives no smaller magnitude. -/
theorem le_roundUnits (hb : 0 < b) (h : unitsOf m * b ≤ a) : m ≤ roundUnits a b := by
  have hmono : roundUnits (unitsOf m * 1) 1 ≤ roundUnits a b := by
    apply roundUnits_mono Nat.one_pos hb
    rwa [Nat.mul_one, Nat.mul_one]
  rwa [roundUnits_unitsOf m Nat.one_pos] at hmono

/-- At or below what a magnitude is worth, rounding gives no larger magnitude. -/
theorem roundUnits_le (hb : 0 < b) (h : a ≤ unitsOf m * b) : roundUnits a b ≤ m := by
  have hmono : roundUnits a b ≤ roundUnits (unitsOf m * 1) 1 := by
    apply roundUnits_mono hb Nat.one_pos
    rwa [Nat.mul_one, Nat.mul_one]
  rwa [roundUnits_unitsOf m Nat.one_pos] at hmono

/-- A larger magnitude is worth no less. -/
theorem unitsOf_mono (h : m ≤ n) : unitsOf m ≤ unitsOf n := by
  by_contra hlt
  have hround : roundUnits (unitsOf n * 1) 1 ≤ m := by
    apply roundUnits_le Nat.one_pos
    omega
  rw [roundUnits_unitsOf n Nat.one_pos] at hround
  have heq : m = n := by omega
  rw [heq] at hlt
  omega

/-- Different magnitudes are worth different amounts. -/
theorem unitsOf_injective : Function.Injective unitsOf := by
  intro m n h
  rw [← roundUnits_unitsOf m Nat.one_pos, h, roundUnits_unitsOf n Nat.one_pos]

/-- **Every integer below `2⁵³` is a double**, in units of `2⁻ᵏ` for any `k` from 52 on. -/
theorem exists_unitsOf {k : ℕ} (hk : 52 ≤ k) (hn : n < 2 ^ 53) :
    ∃ m ≤ (k + 2) * leadingBit, unitsOf m = n <<< k := by
  by_cases hzero : n = 0
  · refine ⟨0, Nat.zero_le _, ?_⟩
    rw [hzero, Nat.zero_shiftLeft]
    rfl
  · set log := Nat.log2 n
    have hlog : log < 53 := (Nat.log2_lt hzero).2 hn
    have hlow : 2 ^ log ≤ n := Nat.log2_self_le hzero
    have hhigh : n < 2 ^ (log + 1) := Nat.lt_log2_self
    -- the significand is the number shifted until it has 53 bits
    have hsplit : leadingBit = 2 ^ log * 2 ^ (52 - log) := by
      rw [leadingBit_eq, ← Nat.pow_add, Nat.add_sub_cancel' (by omega)]
    have hfrom : leadingBit ≤ n * 2 ^ (52 - log) := by
      rw [hsplit]
      exact Nat.mul_le_mul_right _ hlow
    have hto : n * 2 ^ (52 - log) < 2 * leadingBit := by
      calc n * 2 ^ (52 - log) < 2 ^ (log + 1) * 2 ^ (52 - log) :=
            Nat.mul_lt_mul_of_pos_right hhigh (Nat.two_pow_pos _)
        _ = 2 * leadingBit := by rw [hsplit]; ring
    have hrest : n * 2 ^ (52 - log) - leadingBit < leadingBit := by omega
    have hunits := unitsOf_eq (k := k + log - 52) hrest
    refine ⟨_, ?_, hunits.trans ?_⟩
    · have hle : (k + log - 52 + 1) * leadingBit ≤ (k + 1) * leadingBit :=
        Nat.mul_le_mul_right _ (by omega)
      calc (k + log - 52 + 1) * leadingBit + (n * 2 ^ (52 - log) - leadingBit)
          ≤ (k + 1) * leadingBit + leadingBit := Nat.add_le_add hle hrest.le
        _ = (k + 2) * leadingBit := by ring
    · have hshift : k = 52 - log + (k + log - 52) := by omega
      rw [Nat.add_sub_cancel' hfrom, Nat.mul_assoc, ← Nat.pow_add, ← hshift, Nat.shiftLeft_eq]

end EventSieve
