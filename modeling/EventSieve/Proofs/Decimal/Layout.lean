import EventSieve.Decimal.Layout
import EventSieve.Proofs.Decimal.Nearest
import EventSieve.Proofs.Number.Numerals

/-!
# Reading what a decimal number is written as

* `Decimal.Places`: what the digits before and after the point of a number have to do with its value.
* `Decimal.places_parts`: the layout of a number is such.
* `Decimal.Places.read?`: **a layout is read as an integer if the number is one that 128 bits hold, and else
  as the nearest double.**
-/

namespace EventSieve

open Text

variable {d : Decimal} {s t whole fraction : List Char} {negative : Bool}

namespace Decimal

theorem isDigit_of_mem_digits {c : Char} (hc : c ∈ d.digits) : c.isDigit = true :=
  Nat.isDigit_of_mem_toDigits (by decide) (by decide) hc

theorem digits_ne_nil (d : Decimal) : d.digits ≠ [] := Nat.toDigits_ne_nil

theorem digitsValue_digits (d : Decimal) : digitsValue d.digits = d.coefficient :=
  Nat.ofDigitChars_ten_toDigits

/-- A text is one that does not end with a zero, with zeros after it. -/
theorem exists_dropEndZeros (s : List Char) :
    ∃ k, s = dropEndZeros s ++ List.replicate k '0' ∧ (dropEndZeros s).getLast? ≠ some '0' := by
  have hsplit : s = dropEndZeros s ++ (s.reverse.takeWhile (· == '0')).reverse := by
    have h : s.reverse.takeWhile (· == '0') ++ s.reverse.dropWhile (· == '0') = s.reverse :=
      List.takeWhile_append_dropWhile
    have hreverse := congrArg List.reverse h
    rw [List.reverse_append, List.reverse_reverse] at hreverse
    exact hreverse.symm
  have hzeros : ∀ c ∈ (s.reverse.takeWhile (· == '0')).reverse, c = '0' := by
    intro c hc
    have hall : (s.reverse.takeWhile (· == '0')).all (· == '0') = true := List.all_takeWhile
    exact beq_iff_eq.1 (List.all_eq_true.1 hall c (List.mem_reverse.1 hc))
  refine ⟨(s.reverse.takeWhile (· == '0')).reverse.length, ?_, ?_⟩
  · rw [← List.eq_replicate_of_mem hzeros]
    exact hsplit
  · unfold dropEndZeros
    rw [List.getLast?_reverse]
    intro hc
    have hstop := stopsAt_dropWhile (· == '0') s.reverse '0' hc
    exact absurd hstop (by decide)

/-- Digits before a point and after it that denote a number, with none after it that does not count. -/
structure Places (d : Decimal) (whole fraction : List Char) : Prop where
  ne_nil : whole ≠ []
  isDigit_whole : ∀ c ∈ whole, c.isDigit = true
  isDigit_fraction : ∀ c ∈ fraction, c.isDigit = true
  value_eq : (digitsValue (whole ++ fraction) : ℚ) = d.value * 10 ^ fraction.length
  last_ne : fraction.getLast? ≠ some '0'

/-- A number without an exponent below one has no digits after the point. -/
theorem places_of_nonneg (hx : 0 ≤ d.exponent) :
    d.Places (if d.coefficient = 0 then ['0'] else d.digits ++ List.replicate d.exponent.toNat '0') [] := by
  have hexponent : d.exponent = d.exponent.toNat := by omega
  by_cases hc : d.coefficient = 0
  · rw [if_pos hc]
    have hvalue : d.value = 0 := by
      unfold value
      rw [hc, Nat.cast_zero, zero_mul]
    refine ⟨List.cons_ne_nil _ _, ?_, List.forall_mem_nil _, ?_, nofun⟩
    · intro c hmem
      rw [List.mem_singleton.1 hmem]
      decide
    · rw [hvalue, zero_mul]
      rfl
  · rw [if_neg hc]
    refine ⟨List.append_ne_nil_of_left_ne_nil d.digits_ne_nil _, ?_, List.forall_mem_nil _, ?_, nofun⟩
    · intro c hmem
      rcases List.mem_append.1 hmem with hmem | hmem
      · exact isDigit_of_mem_digits hmem
      · exact isDigit_replicate hmem
    · rw [List.append_nil, digitsValue_append_zeros, digitsValue_digits, value, hexponent]
      push_cast
      rw [zpow_natCast, List.length_nil, pow_zero, mul_one]
      rfl

/-- A number with an exponent below one has its digits, with zeros in front, around the point. -/
theorem places_of_neg {places : ℕ} (hx : d.exponent = -(places : ℤ)) {padded : List Char}
    (hpadded : padded = List.replicate (places + 1 - d.digits.length) '0' ++ d.digits) :
    d.Places (padded.take (padded.length - places))
      (dropEndZeros (padded.drop (padded.length - places))) := by
  have hlength : places + 1 ≤ padded.length := by
    rw [hpadded, List.length_append, List.length_replicate]
    omega
  have hdigit : ∀ c ∈ padded, c.isDigit = true := by
    intro c hmem
    rw [hpadded] at hmem
    rcases List.mem_append.1 hmem with hmem | hmem
    · exact isDigit_replicate hmem
    · exact isDigit_of_mem_digits hmem
  have hvalue : digitsValue padded = d.coefficient := by
    rw [hpadded, digitsValue_zeros, digitsValue_digits]
  obtain ⟨k, hsplit, hlast⟩ := exists_dropEndZeros (padded.drop (padded.length - places))
  set whole := padded.take (padded.length - places) with hwhole
  set fraction := dropEndZeros (padded.drop (padded.length - places)) with hfraction
  have hcut : padded = whole ++ (fraction ++ List.replicate k '0') := by
    rw [← hsplit, hwhole, List.take_append_drop]
  have hplaces : fraction.length + k = places := by
    have h := congrArg List.length hsplit
    rw [List.length_drop, List.length_append, List.length_replicate] at h
    omega
  refine ⟨?_, ?_, ?_, ?_, hlast⟩
  · intro hnil
    have h := congrArg List.length hnil
    rw [hwhole, List.length_take, List.length_nil] at h
    omega
  · intro c hmem
    exact hdigit c (List.mem_of_mem_take hmem)
  · intro c hmem
    apply hdigit
    rw [hcut]
    exact List.mem_append_right _ (List.mem_append_left _ hmem)
  · -- the zeros that are dropped make up for the rest of the exponent
    have hzeros : digitsValue (whole ++ fraction) * 10 ^ k = d.coefficient := by
      rw [← hvalue, hcut, ← List.append_assoc, digitsValue_append_zeros]
    have hcast : (digitsValue (whole ++ fraction) : ℚ) * 10 ^ k = d.coefficient := by exact_mod_cast hzeros
    have hten : ∀ n : ℕ, (10 : ℚ) ^ n ≠ 0 := fun n => pow_ne_zero n (by norm_num)
    rw [value, hx, ← hcast, ← hplaces, zpow_neg, zpow_natCast, pow_add]
    have h₁ := hten k
    have h₂ := hten fraction.length
    field_simp

/-- **The layout of a number has the digits of its value.** -/
theorem places_parts (d : Decimal) : d.Places d.parts.1 d.parts.2 := by
  unfold parts
  by_cases hx : 0 ≤ d.exponent
  · have h := places_of_nonneg hx
    rw [if_pos hx]
    by_cases hc : d.coefficient = 0
    · rw [if_pos hc]
      rwa [if_pos hc] at h
    · rw [if_neg hc]
      rwa [if_neg hc] at h
  · rw [if_neg hx]
    have hplaces : d.exponent = -((-d.exponent).toNat : ℤ) := by omega
    exact places_of_neg hplaces rfl

/-- A number is an integer exactly if no digit stands after its point. -/
theorem Places.value_eq_iff (h : d.Places whole fraction) :
    (∃ n : ℕ, d.value = n) ↔ fraction = [] := by
  have hvalue := h.value_eq
  constructor
  · rintro ⟨n, hn⟩
    rcases List.eq_nil_or_concat' fraction with hnil | ⟨front, c, rfl⟩
    · exact hnil
    -- a digit after the point that is no zero leaves no multiple of ten
    have hc : c ≠ '0' := by
      rintro rfl
      exact h.last_ne List.getLast?_concat
    have hdigit := h.isDigit_fraction c (List.mem_append_right _ List.mem_cons_self)
    refine absurd ?_ (digitsValue_concat_mod_ne (s := whole ++ front) hdigit hc)
    rw [hn, List.length_append, List.length_singleton] at hvalue
    have hnat : digitsValue (whole ++ (front ++ [c])) = n * 10 ^ (front.length + 1) := by exact_mod_cast hvalue
    rw [List.append_assoc, hnat, Nat.pow_succ, ← Nat.mul_assoc]
    exact Nat.mul_mod_left _ 10
  · rintro rfl
    rw [List.length_nil, pow_zero, mul_one] at hvalue
    exact ⟨_, hvalue.symm⟩

/-- The digits of a layout with a point between them. -/
def Places.text (whole fraction : List Char) : List Char :=
  if fraction = [] then whole else whole ++ '.' :: fraction

theorem positional_eq (d : Decimal) : d.positional = Places.text d.parts.1 d.parts.2 := by
  unfold positional Places.text
  obtain ⟨whole, _ | ⟨c, fraction⟩⟩ := d.parts
  · rfl
  · rfl

/-- A sign, spelled with a minus only where it is needed. -/
def signText (negative : Bool) : List Char := if negative then ['-'] else []

theorem signSpelled (negative : Bool) : Number.SignSpelled (signText negative) negative := by
  cases negative with
  | true => exact .minus
  | false => exact .none

/-- **A layout after a sign is a decimal numeral** without an exponent. -/
theorem Places.decimalNumeral (h : d.Places whole fraction) (negative : Bool) :
    Number.DecimalNumeral (signText negative ++ Places.text whole fraction) negative
      (digitsValue (whole ++ fraction)) fraction.length 0 0 := by
  have hmantissa : Number.MantissaSpelled (Places.text whole fraction) (digitsValue (whole ++ fraction))
      fraction.length := by
    unfold Places.text
    by_cases hnil : fraction = []
    · rw [if_pos hnil, hnil, List.append_nil]
      exact .whole h.ne_nil h.isDigit_whole
    · rw [if_neg hnil]
      refine .point (List.append_ne_nil_of_left_ne_nil h.ne_nil _) ?_
      exact List.forall_mem_append.2 ⟨h.isDigit_whole, h.isDigit_fraction⟩
  have hnumeral := Number.DecimalNumeral.mk (signSpelled negative) hmantissa .none
  rwa [List.append_nil] at hnumeral

/-- A layout without a point spells an integer, and one with a point does not. -/
theorem Places.spellsInteger_iff (h : d.Places whole fraction) (negative : Bool) {w : ℤ} :
    Number.SpellsInteger (signText negative ++ Places.text whole fraction) w ↔
      fraction = [] ∧ w = Number.signed negative (digitsValue whole) := by
  have hnumeral := h.decimalNumeral negative
  have hcommas := Number.filter_numeralOf (signText negative ++ Places.text whole fraction)
  rw [hnumeral.numeralOf_eq] at hcommas
  by_cases hnil : fraction = []
  · have htext : Places.text whole fraction = whole := if_pos hnil
    rw [htext] at hcommas ⊢
    have hspelled := Number.SpellsInteger.mk (signSpelled negative) h.ne_nil h.isDigit_whole hcommas
    constructor
    · intro hw
      exact ⟨hnil, hw.unique hspelled⟩
    · rintro ⟨-, rfl⟩
      exact hspelled
  · have htext : Places.text whole fraction = whole ++ '.' :: fraction := if_neg hnil
    have hpoint : '.' ∈ signText negative ++ Places.text whole fraction := by
      rw [htext]
      exact List.mem_append_right _ (List.mem_append_right _ List.mem_cons_self)
    constructor
    · intro hw
      exact absurd (hw.mem hpoint) (by decide)
    · rintro ⟨hnil', -⟩
      exact absurd hnil' hnil

/-- **A layout is read as an integer if it is one that 128 bits hold**, and else as the nearest double. -/
theorem Places.read? (h : d.Places whole fraction) (negative : Bool) :
    Number.read? (signText negative ++ Places.text whole fraction) =
      if fraction = [] ∧ Number.fitsWord (Number.signed negative (digitsValue whole)) = true then
        some (.integer (Number.signed negative (digitsValue whole)))
      else some (.float (.ofDecimal negative d)) := by
  have hnumeral := h.decimalNumeral negative
  have hself := hnumeral.numeralOf_eq
  by_cases hint : fraction = [] ∧ Number.fitsWord (Number.signed negative (digitsValue whole)) = true
  · rw [if_pos hint]
    exact Number.read?_of_spellsInteger ((h.spellsInteger_iff negative).2 ⟨hint.1, rfl⟩) hint.2
  · rw [← hself] at hnumeral
    rw [if_neg hint, Number.read?_of_decimalNumeral hnumeral fun w hw => ?_]
    · have hten : (10 : ℚ) ^ fraction.length ≠ 0 := pow_ne_zero _ (by norm_num)
      have hvalue : (⟨digitsValue (whole ++ fraction), 0 - fraction.length⟩ : Decimal).value = d.value := by
        rw [value, zero_sub, zpow_neg, zpow_natCast, h.value_eq]
        field_simp
      unfold Binary64.ofDecimal
      rw [magnitude_congr hvalue]
    · rw [hself, h.spellsInteger_iff negative] at hw
      obtain ⟨hnil, rfl⟩ := hw
      exact Bool.eq_false_iff.2 fun hfits => hint ⟨hnil, hfits⟩

end Decimal

end EventSieve
