import EventSieve.Proofs.Binary64.Floor
import EventSieve.Proofs.Decimal.Nearest

/-!
# The nearest double

* `NearestTo`: what it is for a magnitude to be the one nearest to a number, without a word about how it is
  found; `NearestTo.unique`: **there is only one**.
* `roundUnits_nearest`: every other magnitude is farther from a quotient than the one that it is rounded to,
  or as far and then that one is even.
* `Decimal.nearestTo_magnitude`: **a decimal number is rounded to the nearest magnitude.**
* `NearestTo.eq_infinity_iff`: which numbers overflow.
-/

namespace EventSieve

variable {a b h j k m n num den s : ℕ} {q : ℚ}

/-- What a magnitude is worth. -/
def worth (m : ℕ) : ℚ := (unitsOf m : ℚ) / unitsInOne

/-- How far a number is from what a magnitude is worth. -/
def distance (m : ℕ) (q : ℚ) : ℚ := |worth m - q|

/-- A magnitude is nearest to a number that is not negative: none is nearer, and if another one is as near
it is even. The magnitude of the infinities counts as what would come after the largest finite double,
`2¹⁰²⁴`. -/
structure NearestTo (m : ℕ) (q : ℚ) : Prop where
  le_infinity : m ≤ infinityMagnitude
  nearest : ∀ k ≤ infinityMagnitude, distance m q ≤ distance k q
  even : ∀ k ≤ infinityMagnitude, k ≠ m → distance m q = distance k q → m % 2 = 0

/-- A larger magnitude is worth more. -/
theorem worth_strictMono : StrictMono worth := by
  intro m n h
  have hlt : unitsOf m < unitsOf n :=
    Nat.lt_of_le_of_ne (unitsOf_mono h.le) fun heq => h.ne (unitsOf_injective heq)
  apply div_lt_div_of_pos_right _ unitsInOne_cast_pos
  exact_mod_cast hlt

/-- Of two numbers the smaller one is as near as the other one up to the middle between them. -/
theorem abs_sub_le_abs_sub_iff {u w : ℚ} (h : u < w) (q : ℚ) : |u - q| ≤ |w - q| ↔ 2 * q ≤ u + w := by
  rcases abs_cases (u - q) with ⟨hu, hu'⟩ | ⟨hu, hu'⟩ <;>
    rcases abs_cases (w - q) with ⟨hw, hw'⟩ | ⟨hw, hw'⟩ <;> rw [hu, hw]
  all_goals
    constructor
    · intro hle
      linarith
    · intro hle
      linarith

theorem distance_le_iff (h : m < n) : distance m q ≤ distance n q ↔ 2 * q ≤ worth m + worth n :=
  abs_sub_le_abs_sub_iff (worth_strictMono h) q

/-- The larger one of two magnitudes is as near as the smaller one from the middle between them on. -/
theorem distance_ge_iff (h : m < n) : distance n q ≤ distance m q ↔ worth m + worth n ≤ 2 * q := by
  have hmirror := abs_sub_le_abs_sub_iff (neg_lt_neg (worth_strictMono h)) (-q)
  rw [neg_sub_neg, neg_sub_neg, abs_sub_comm q, abs_sub_comm q] at hmirror
  unfold distance
  rw [hmirror]
  constructor
  · intro hle
    linarith
  · intro hle
    linarith

/-- **Only one magnitude is nearest.** Of two there would be one in between, nearer than both. -/
theorem NearestTo.unique (hm : NearestTo m q) (hn : NearestTo n q) : m = n := by
  have hle : ∀ {m n : ℕ}, NearestTo m q → NearestTo n q → n ≤ m := by
    intro m n hm hn
    by_contra hlt
    rw [not_le] at hlt
    have hinfinity := hn.le_infinity
    have hmn := hm.nearest n hinfinity
    have hnm := hn.nearest m hm.le_infinity
    have hmeven := hm.even n hinfinity hlt.ne' (le_antisymm hmn hnm)
    have hneven := hn.even m hm.le_infinity hlt.ne (le_antisymm hnm hmn)
    have hbetween : m + 1 < n := by omega
    have hnear := hm.nearest (m + 1) (by omega)
    rw [distance_le_iff (Nat.lt_succ_self m)] at hnear
    rw [distance_ge_iff hlt] at hnm
    have hless := worth_strictMono hbetween
    linarith
  exact Nat.le_antisymm (hle hn hm) (hle hm hn)

/-- The multiples of a power of two from the leading bit to twice the leading bit are what magnitudes are
worth; and those of one from zero on. -/
theorem unitsOf_multiple (hlow : s = 0 ∨ leadingBit ≤ j) (hhigh : j ≤ 2 * leadingBit) :
    unitsOf (s * leadingBit + j) = j * 2 ^ s := by
  by_cases hj : leadingBit ≤ j
  · obtain ⟨f, rfl⟩ := Nat.exists_eq_add_of_le hj
    have hcut : s * leadingBit + (leadingBit + f) = (s + 1) * leadingBit + f := by ring
    rw [hcut]
    exact unitsOf_carry (by omega)
  · obtain rfl : s = 0 := by omega
    have hexponent : j / leadingBit = 0 := Nat.div_eq_of_lt (Nat.lt_of_not_le hj)
    have hfraction : j % leadingBit = j := Nat.mod_eq_of_lt (Nat.lt_of_not_le hj)
    rw [Nat.zero_mul, Nat.zero_add, Nat.pow_zero, Nat.mul_one]
    unfold unitsOf
    rw [hexponent, hfraction]
    exact if_pos rfl

/-- The magnitudes after one that is worth a multiple are worth at least the next multiple. -/
theorem next_multiple_le (hlow : s = 0 ∨ leadingBit ≤ j) (hhigh : j ≤ 2 * leadingBit)
    (hk : s * leadingBit + j < k) : (j + 1) * 2 ^ s ≤ unitsOf k := by
  rcases Nat.eq_or_lt_of_le hhigh with rfl | hlt
  · -- from here on there are only multiples of the next power
    have hnext : (s + 1) * leadingBit + (leadingBit + 1) ≤ k := by
      have hcut : (s + 1) * leadingBit + (leadingBit + 1) = s * leadingBit + 2 * leadingBit + 1 := by ring
      rw [hcut]
      exact hk
    have hstep : 2 * leadingBit + 1 ≤ (leadingBit + 1) * 2 := by decide
    calc (2 * leadingBit + 1) * 2 ^ s ≤ (leadingBit + 1) * 2 * 2 ^ s := Nat.mul_le_mul_right _ hstep
      _ = (leadingBit + 1) * 2 ^ (s + 1) := by ring
      _ = unitsOf ((s + 1) * leadingBit + (leadingBit + 1)) := by
          rw [unitsOf_multiple (.inr (Nat.le_succ _)) (by decide)]
      _ ≤ unitsOf k := unitsOf_mono hnext
  · have hlow' : s = 0 ∨ leadingBit ≤ j + 1 := by omega
    rw [← unitsOf_multiple hlow' hlt]
    exact unitsOf_mono hk

/-- The magnitudes before one that is worth a multiple are worth at most the last multiple before it. -/
theorem add_le_multiple (hlow : s = 0 ∨ leadingBit < j) (hhigh : j ≤ 2 * leadingBit)
    (hk : k < s * leadingBit + j) : unitsOf k + 2 ^ s ≤ j * 2 ^ s := by
  obtain ⟨i, rfl⟩ : ∃ i, j = i + 1 := by
    refine Nat.exists_eq_add_one_of_ne_zero ?_
    rintro rfl
    rcases hlow with rfl | hlow
    · omega
    · omega
  have hlow' : s = 0 ∨ leadingBit ≤ i := by omega
  have hle : unitsOf k ≤ unitsOf (s * leadingBit + i) := unitsOf_mono (by omega)
  rw [unitsOf_multiple hlow' (by omega)] at hle
  rw [Nat.succ_mul]
  exact Nat.add_le_add_right hle _

/-- How far `a / b` units are from what a magnitude is worth, in parts of `b`. -/
def gap (m a b : ℕ) : ℕ := ((unitsOf m * b : ℕ) - a : ℤ).natAbs

/-- `a / b` units lie at most half a step from `h` steps, each of `2 ^ s` units, and if they lie in the middle
between two steps `h` is even. There are as many steps as a significand can tell, so the steps are as small as
they can be. -/
structure Steps (a b s h : ℕ) : Prop where
  low : s = 0 ∨ leadingBit ≤ h
  high : h ≤ 2 * leadingBit
  first : s ≠ 0 → leadingBit * (2 ^ s * b) ≤ a
  up : 2 * a ≤ 2 * (h * (2 ^ s * b)) + 2 ^ s * b
  down : 2 * (h * (2 ^ s * b)) ≤ 2 * a + 2 ^ s * b
  tie : 2 * a = 2 * (h * (2 ^ s * b)) + 2 ^ s * b ∨ 2 * (h * (2 ^ s * b)) = 2 * a + 2 ^ s * b →
    h % 2 = 0

/-- A quotient is rounded to steps. -/
theorem exists_steps (a : ℕ) (hb : 0 < b) :
    ∃ s h, roundUnits a b = s * leadingBit + h ∧ Steps a b s h := by
  obtain ⟨hhigh, hlow⟩ := halfEven_shift a hb
  have hfirst := leadingBit_mul_le hb (a := a)
  have hmagnitude : roundUnits a b = (Nat.log2 (a / b) - 52) * leadingBit +
      halfEven a (b <<< (Nat.log2 (a / b) - 52)) := rfl
  set s := Nat.log2 (a / b) - 52
  have hstep : b <<< s = 2 ^ s * b := by rw [Nat.shiftLeft_eq, Nat.mul_comm]
  rw [hstep] at hhigh hlow hfirst hmagnitude
  obtain ⟨hup, hdown, htie⟩ := halfEven_spec a (Nat.mul_pos (Nat.two_pow_pos s) hb)
  set h := halfEven a (2 ^ s * b)
  have hup' : (2 * h + 1) * (2 ^ s * b) = 2 * (h * (2 ^ s * b)) + 2 ^ s * b := by ring
  have hdown' : 2 * h * (2 ^ s * b) = 2 * (h * (2 ^ s * b)) := by ring
  rw [hup'] at hup htie
  rw [hdown'] at hdown htie
  refine ⟨s, h, hmagnitude, ?_, hhigh, fun hs => hfirst (Nat.pos_of_ne_zero hs), hup, hdown, htie⟩
  rcases Nat.eq_zero_or_pos s with hs | hs
  · exact .inl hs
  · exact .inr (hlow hs)

/-- In parts of `b` the magnitude that steps make is worth as many steps. -/
theorem Steps.unitsOf_mul (hs : Steps a b s h) : unitsOf (s * leadingBit + h) * b = h * (2 ^ s * b) := by
  rw [unitsOf_multiple hs.low hs.high, Nat.mul_assoc]

/-- No other magnitude is nearer than the one that steps make. -/
theorem Steps.nearest (hs : Steps a b s h) (hb : 0 < b) (hk : k ≠ s * leadingBit + h) :
    gap (s * leadingBit + h) a b < gap k a b ∨
      gap (s * leadingBit + h) a b = gap k a b ∧ h % 2 = 0 := by
  have hworth := hs.unitsOf_mul
  have hpos : 0 < 2 ^ s * b := Nat.mul_pos (Nat.two_pow_pos s) hb
  obtain ⟨hlow, hhigh, hfirst, hup, hdown, htie⟩ := hs
  unfold gap
  rcases Nat.lt_or_gt_of_ne hk with hlt | hgt
  · by_cases hinside : s = 0 ∨ leadingBit < h
    · have hle : unitsOf k * b + 2 ^ s * b ≤ h * (2 ^ s * b) := by
        rw [← Nat.add_mul, ← Nat.mul_assoc]
        exact Nat.mul_le_mul_right b (add_le_multiple hinside hhigh hlt)
      rw [hworth]
      omega
    · -- at the start of a binade the quotient is not below the magnitude
      rw [not_or] at hinside
      have hstart : h = leadingBit := by omega
      have hle : unitsOf (s * leadingBit + h) * b ≤ a := by
        rw [hworth, hstart]
        exact hfirst hinside.1
      have hless : unitsOf k * b < unitsOf (s * leadingBit + h) * b := by
        refine Nat.mul_lt_mul_of_pos_right ?_ hb
        exact Nat.lt_of_le_of_ne (unitsOf_mono hlt.le) fun heq => hk (unitsOf_injective heq)
      omega
  · have hle : h * (2 ^ s * b) + 2 ^ s * b ≤ unitsOf k * b := by
      rw [← Nat.succ_mul, ← Nat.mul_assoc]
      exact Nat.mul_le_mul_right b (next_multiple_le hlow hhigh hgt)
    rw [hworth]
    omega

/-- **Every other magnitude is farther** from a quotient than the one it is rounded to, or as far and then
that one is even. -/
theorem roundUnits_nearest (hb : 0 < b) (hk : k ≠ roundUnits a b) :
    gap (roundUnits a b) a b < gap k a b ∨
      gap (roundUnits a b) a b = gap k a b ∧ roundUnits a b % 2 = 0 := by
  obtain ⟨s, h, hmagnitude, hs⟩ := exists_steps a hb
  have hparity : (s * leadingBit + h) % 2 = h % 2 := by
    have heven : s * leadingBit = 2 * (s * 0x8000000000000) := by ring
    rw [heven, Nat.mul_add_mod]
  rw [hmagnitude] at hk ⊢
  rw [hparity]
  exact hs.nearest hb hk

/-- So it is with an infinity in place of all magnitudes past it. -/
theorem min_roundUnits_nearest (hb : 0 < b) (hinfinity : k ≤ infinityMagnitude)
    (hk : k ≠ min (roundUnits a b) infinityMagnitude) :
    gap (min (roundUnits a b) infinityMagnitude) a b < gap k a b ∨
      gap (min (roundUnits a b) infinityMagnitude) a b = gap k a b ∧
        min (roundUnits a b) infinityMagnitude % 2 = 0 := by
  by_cases h : roundUnits a b ≤ infinityMagnitude
  · rw [Nat.min_eq_left h] at hk ⊢
    exact roundUnits_nearest hb hk
  · rw [Nat.min_eq_right (Nat.le_of_not_le h)] at hk ⊢
    have hbeyond : unitsOf infinityMagnitude * b < a :=
      Nat.lt_of_not_le fun hle => h (roundUnits_le hb hle)
    have hless : unitsOf k * b < unitsOf infinityMagnitude * b := by
      refine Nat.mul_lt_mul_of_pos_right ?_ hb
      exact Nat.lt_of_le_of_ne (unitsOf_mono hinfinity) fun heq => hk (unitsOf_injective heq)
    left
    unfold gap
    omega

/-- Distances from a fraction are gaps in parts of its denominator. -/
theorem distance_eq_gap (hden : 0 < den) (m : ℕ) :
    distance m ((num : ℚ) / den) = (gap m (num * unitsInOne) den : ℚ) / (unitsInOne * den) := by
  have hunits := unitsInOne_cast_pos
  have hden' : (0 : ℚ) < den := by exact_mod_cast hden
  have hsub : (unitsOf m : ℚ) / unitsInOne - num / den =
      ((unitsOf m * den : ℕ) - (num * unitsInOne : ℕ) : ℤ) / (unitsInOne * den) := by
    push_cast
    rw [div_sub_div _ _ hunits.ne' hden'.ne', mul_comm (unitsInOne : ℚ) (num : ℚ)]
  unfold distance worth gap
  rw [hsub, abs_div, abs_of_pos (mul_pos hunits hden'), Nat.cast_natAbs, Int.cast_abs]

/-- **A decimal number is rounded to the nearest magnitude.** -/
theorem Decimal.nearestTo_magnitude (d : Decimal) : NearestTo d.magnitude d.value := by
  have hmagnitude : d.magnitude = min (roundUnits (d.num * unitsInOne) d.den) infinityMagnitude := by
    rw [d.magnitude_eq, nearestMagnitude, roundMagnitude_eq]
  have hscale : (0 : ℚ) < unitsInOne * d.den := mul_pos unitsInOne_cast_pos d.den_cast_pos
  have hdistance : ∀ m, distance m d.value = (gap m (d.num * unitsInOne) d.den : ℚ) / (unitsInOne * d.den) := by
    intro m
    rw [d.value_eq, distance_eq_gap d.den_pos]
  have hnearest := fun k => min_roundUnits_nearest (k := k) (a := d.num * unitsInOne) d.den_pos
  rw [← hmagnitude] at hnearest
  refine ⟨?_, fun k hk => ?_, fun k hk hne heq => ?_⟩
  · rw [hmagnitude]
    exact Nat.min_le_right _ _
  · rw [hdistance, hdistance, div_le_div_iff_of_pos_right hscale, Nat.cast_le]
    by_cases hsame : k = d.magnitude
    · rw [hsame]
    · rcases hnearest k hk hsame with hlt | ⟨heq, -⟩
      · exact hlt.le
      · exact heq.le
  · rw [hdistance, hdistance, div_left_inj' hscale.ne', Nat.cast_inj] at heq
    rcases hnearest k hk hne with hlt | ⟨-, heven⟩
    · exact absurd heq hlt.ne
    · exact heven

theorem Binary64.magnitude_ofDecimal (negative : Bool) (d : Decimal) :
    (ofDecimal negative d).magnitude = d.magnitude :=
  Nat.min_eq_left d.nearestTo_magnitude.le_infinity

/-- So is the double of either sign that is made from it. -/
theorem Binary64.nearestTo_ofDecimal (negative : Bool) (d : Decimal) :
    NearestTo (ofDecimal negative d).magnitude d.value := by
  rw [magnitude_ofDecimal]
  exact d.nearestTo_magnitude

/-- What the magnitude of the infinities counts as, and what the largest finite one is worth, two halves of
a gap below. -/
theorem worth_infinity : worth infinityMagnitude = 2 ^ 1024 ∧
    worth (infinityMagnitude - 1) = 2 ^ 1024 - 2 * 2 ^ 970 := by
  have hne : (unitsInOne : ℚ) ≠ 0 := unitsInOne_cast_pos.ne'
  have htop : unitsOf infinityMagnitude = 2 ^ 1024 * unitsInOne := by decide +kernel
  have hlast : unitsOf (infinityMagnitude - 1) + 2 * 2 ^ 970 * unitsInOne = 2 ^ 1024 * unitsInOne := by
    decide +kernel
  unfold worth
  constructor
  · rw [htop, Nat.cast_mul, Nat.cast_pow, mul_div_cancel_right₀ _ hne]
    rfl
  · have hcast := congrArg (Nat.cast (R := ℚ)) hlast
    rw [Nat.cast_add, Nat.cast_mul, Nat.cast_mul, Nat.cast_mul, Nat.cast_pow, Nat.cast_pow] at hcast
    rw [div_eq_iff hne, sub_mul, eq_sub_iff_add_eq]
    exact hcast

/-- **Which numbers overflow**: those from the middle between the largest finite double and `2¹⁰²⁴` on. -/
theorem NearestTo.eq_infinity_iff (h : NearestTo m q) :
    m = infinityMagnitude ↔ 2 ^ 1024 - 2 ^ 970 ≤ q := by
  obtain ⟨htop, hlast⟩ := worth_infinity
  have hinfinity := h.le_infinity
  generalize (2 : ℚ) ^ 1024 = top at *
  generalize (2 : ℚ) ^ 970 = half at *
  constructor
  · rintro rfl
    have hnear := h.nearest (infinityMagnitude - 1) (Nat.sub_le _ _)
    rw [distance_ge_iff (by decide), htop, hlast] at hnear
    linarith
  · intro hq
    by_contra hne
    have hlt : m < infinityMagnitude := Nat.lt_of_le_of_ne hinfinity hne
    have hnear := h.nearest infinityMagnitude (Nat.le_refl _)
    have hmiddle := (distance_le_iff hlt).1 hnear
    rw [htop] at hmiddle
    -- then it is the largest finite magnitude, as near and odd
    have hlargest : m = infinityMagnitude - 1 := by
      by_contra hless
      have hworth := worth_strictMono (show m < infinityMagnitude - 1 by omega)
      rw [hlast] at hworth
      linarith
    have hback : distance infinityMagnitude q ≤ distance m q := by
      rw [distance_ge_iff hlt, hlargest, htop, hlast]
      linarith
    have heven := h.even infinityMagnitude (Nat.le_refl _) hlt.ne' (le_antisymm hnear hback)
    rw [hlargest] at heven
    exact absurd heven (by decide)

end EventSieve
