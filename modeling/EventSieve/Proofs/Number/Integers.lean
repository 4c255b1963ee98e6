import Mathlib.Tactic.NormNum
import EventSieve.Number.Reader
import EventSieve.Proofs.Clause.Characters
import EventSieve.Proofs.Text.Digits

/-!
# Integers in decimal

* `SignSpelled`, `SpellsInteger`: the decimal spellings of an integer, with an optional sign, any
  zeros in front and commas anywhere.
* `SpellsInteger.unique`: a text spells one integer only.
* `read?_cases`: the three ways a text is read as a number.
* `read?_of_spellsInteger`: **every spelling of an integer that 128 bits hold is read as it.**
* `spellsInteger_integerText`: what an integer is printed as is one of its spellings.
-/

namespace EventSieve

open Text

variable {c : Char} {s sign digits : List Char} {negative : Bool} {w : ℤ}

/-- A digit may occur in a property's name, so it is neither a blank nor anything else that ends one. -/
theorem inProperty_of_isDigit (h : c.isDigit = true) : inProperty c = true := by
  have hall : c.isAlphanum = true := by
    unfold Char.isAlphanum
    rw [h, Bool.or_true]
  unfold inProperty
  rw [isAlphanumeric_of_isAlphanum hall, Bool.true_or, Bool.true_or]

theorem isBlank_of_isDigit (h : c.isDigit = true) : isBlank c = false :=
  isBlank_of_inProperty (inProperty_of_isDigit h)

/-- A digit is no sign. -/
theorem ne_sign_of_isDigit (hs : ∀ c ∈ s, c.isDigit = true) :
    ∀ c, s.head? = some c → c ≠ '-' ∧ c ≠ '+' := by
  intro c hc
  have hdigit := hs c (List.mem_of_head? hc)
  exact ⟨ne_of_isDigit hdigit (by decide), ne_of_isDigit hdigit (by decide)⟩

namespace Number

/-- The spellings of a sign: a minus, or nothing or a plus. -/
inductive SignSpelled : List Char → Bool → Prop
  | minus : SignSpelled ['-'] true
  | none : SignSpelled [] false
  | plus : SignSpelled ['+'] false

/-- The decimal spellings of an integer: commas apart, an optional sign and some digits. -/
inductive SpellsInteger : List Char → ℤ → Prop
  | mk {s sign digits : List Char} {negative : Bool} : SignSpelled sign negative → digits ≠ [] →
      (∀ c ∈ digits, c.isDigit = true) → s.filter (· ≠ ',') = sign ++ digits →
      SpellsInteger s (signed negative (digitsValue digits))

theorem SignSpelled.mem (h : SignSpelled sign negative) (hc : c ∈ sign) : c = '-' ∨ c = '+' := by
  cases h with
  | minus => exact .inl (List.mem_singleton.1 hc)
  | none => exact absurd hc List.not_mem_nil
  | plus => exact .inr (List.mem_singleton.1 hc)

/-- A sign, any zeros and the digits of a natural number, with commas anywhere, spell it. -/
theorem spellsInteger_zeros {k n : ℕ} (hs : SignSpelled sign negative)
    (h : s.filter (· ≠ ',') = sign ++ (List.replicate k '0' ++ Nat.toDigits 10 n)) :
    SpellsInteger s (signed negative n) := by
  have hvalue : digitsValue (List.replicate k '0' ++ Nat.toDigits 10 n) = n := by
    rw [digitsValue_zeros]
    exact Nat.ofDigitChars_ten_toDigits
  have hne : List.replicate k '0' ++ Nat.toDigits 10 n ≠ [] :=
    List.append_ne_nil_of_right_ne_nil _ Nat.toDigits_ne_nil
  have hdigits : ∀ c ∈ List.replicate k '0' ++ Nat.toDigits 10 n, c.isDigit = true := by
    intro c hc
    rcases List.mem_append.1 hc with hc | hc
    · rw [List.eq_of_mem_replicate hc]
      decide
    · exact Nat.isDigit_of_mem_toDigits (by decide) (by decide) hc
  have hspells := SpellsInteger.mk hs hne hdigits h
  rwa [hvalue] at hspells

/-- **What an integer is printed as spells it.** -/
theorem spellsInteger_integerText (v : ℤ) : SpellsInteger (integerText v) v := by
  have hfilter : (integerText v).filter (· ≠ ',') = integerText v := by
    rw [List.filter_eq_self]
    intro c hc
    have hdigits : ∀ c ∈ Nat.toDigits 10 v.natAbs, c ≠ ',' := fun c hc =>
      ne_of_isDigit (Nat.isDigit_of_mem_toDigits (by decide) (by decide) hc) (by decide)
    unfold integerText at hc
    split at hc
    · rcases List.mem_cons.1 hc with rfl | hc
      · decide
      · exact decide_eq_true (hdigits c hc)
    · exact decide_eq_true (hdigits c hc)
  by_cases hv : v < 0
  · have hspells : SpellsInteger (integerText v) (signed true v.natAbs) := by
      refine spellsInteger_zeros (k := 0) .minus ?_
      rw [hfilter, integerText, if_pos hv]
      rfl
    have hsigned : signed true v.natAbs = v := by
      change -(v.natAbs : ℤ) = v
      omega
    rwa [hsigned] at hspells
  · have hspells : SpellsInteger (integerText v) (signed false v.natAbs) := by
      refine spellsInteger_zeros (k := 0) .none ?_
      rw [hfilter, integerText, if_neg hv]
      rfl
    have hsigned : signed false v.natAbs = v := by
      change (v.natAbs : ℤ) = v
      omega
    rwa [hsigned] at hspells

/-- The characters of a spelling. -/
theorem SpellsInteger.mem (h : SpellsInteger s w) (hc : c ∈ s) :
    c.isDigit = true ∨ c = ',' ∨ c = '-' ∨ c = '+' := by
  cases h with
  | @mk sign digits negative hs hne hd hf =>
    by_cases hcomma : c = ','
    · exact .inr (.inl hcomma)
    · have hmem : c ∈ s.filter (· ≠ ',') := List.mem_filter.2 ⟨hc, decide_eq_true hcomma⟩
      rw [hf] at hmem
      rcases List.mem_append.1 hmem with hmem | hmem
      · exact .inr (.inr (hs.mem hmem))
      · exact .inl (hd c hmem)

theorem SpellsInteger.ne_nil (h : SpellsInteger s w) : s ≠ [] := by
  cases h with
  | mk hs hne hd hf =>
    rintro rfl
    exact hne (List.append_eq_nil_iff.1 hf.symm).2

/-- A sign is split off what follows it, if that does not start with a sign. -/
theorem splitSign_append (h : SignSpelled sign negative)
    (hd : ∀ c, s.head? = some c → c ≠ '-' ∧ c ≠ '+') : splitSign (sign ++ s) = (negative, s) := by
  cases h with
  | minus => rfl
  | plus => rfl
  | none =>
    rw [List.nil_append]
    unfold splitSign
    split
    · exact absurd rfl (hd '-' rfl).1
    · exact absurd rfl (hd '+' rfl).2
    · rfl

/-- The sign of a text, spelled as it is, and what follows it. -/
theorem splitSign_spec (s : List Char) :
    ∃ sign, SignSpelled sign (splitSign s).1 ∧ s = sign ++ (splitSign s).2 := by
  unfold splitSign
  split
  · exact ⟨['-'], .minus, rfl⟩
  · exact ⟨['+'], .plus, rfl⟩
  · exact ⟨[], .none, rfl⟩

/-- **A text spells one integer only.** -/
theorem SpellsInteger.unique {v : ℤ} (hv : SpellsInteger s v) (hw : SpellsInteger s w) : v = w := by
  have hcut : ∀ {u : ℤ}, SpellsInteger s u →
      u = signed (splitSign (s.filter (· ≠ ','))).1 (digitsValue (splitSign (s.filter (· ≠ ','))).2) := by
    intro u hu
    cases hu with
    | mk hs hne hd hf => rw [hf, splitSign_append hs (ne_sign_of_isDigit hd)]
  rw [hcut hv, hcut hw]

/-- A text without an `x` is not taken for a hexadecimal number. -/
theorem afterHexMark?_eq_none (hx : 'x' ∉ s) (hX : 'X' ∉ s) : afterHexMark? s = none := by
  unfold afterHexMark?
  split
  · exact absurd (List.mem_cons_of_mem _ List.mem_cons_self) hx
  · exact absurd (List.mem_cons_of_mem _ List.mem_cons_self) hX
  · rfl

/-- A text without blanks is left as it is, apart from its commas. -/
theorem numeralOf_eq (h : s.filter (· ≠ ',') = digits) (hb : ∀ c ∈ digits, isBlank c = false) :
    numeralOf s = digits := by
  unfold numeralOf
  rw [h]
  refine trim_eq_self (stopsAt_of_forall hb) (stopsAt_of_forall fun c hc => ?_)
  exact hb c (List.mem_reverse.1 hc)

theorem isBlank_of_mem_sign (h : SignSpelled sign negative) : ∀ c ∈ sign, isBlank c = false := by
  intro c hc
  rcases h.mem hc with rfl | rfl
  · decide
  · decide

/-- A sign and digits are left as they are, apart from the commas among them. -/
theorem numeralOf_integer (hs : SignSpelled sign negative) (hd : ∀ c ∈ digits, c.isDigit = true)
    (hf : s.filter (· ≠ ',') = sign ++ digits) : numeralOf s = sign ++ digits := by
  apply numeralOf_eq hf
  intro c hc
  rcases List.mem_append.1 hc with hc | hc
  · exact isBlank_of_mem_sign hs c hc
  · exact isBlank_of_isDigit (hd c hc)

/-- 128 bits hold the integers from `-2¹²⁷` up to, and without, `2¹²⁷`. -/
theorem fitsWord_iff : fitsWord w = true ↔ -2 ^ 127 ≤ w ∧ w < 2 ^ 127 := by
  have hlimit : (wordLimit : ℤ) = 2 ^ 127 := by norm_num
  unfold fitsWord
  rw [Bool.and_eq_true, decide_eq_true_iff, decide_eq_true_iff, hlimit]

/-- Digits, and whether there are any, as they are tested. -/
theorem isEmpty_or_all_eq_false :
    (digits.isEmpty || !digits.all Char.isDigit) = false ↔
      digits ≠ [] ∧ ∀ c ∈ digits, c.isDigit = true := by
  rw [Bool.or_eq_false_iff, Bool.not_eq_false', List.isEmpty_eq_false_iff, List.all_eq_true]

theorem readInteger?_eq (hne : digits ≠ []) (hd : ∀ c ∈ digits, c.isDigit = true) :
    readInteger? negative digits =
      if fitsWord (signed negative (digitsValue digits)) then
        some (signed negative (digitsValue digits))
      else none := by
  unfold readInteger?
  rw [isEmpty_or_all_eq_false.2 ⟨hne, hd⟩, if_neg Bool.false_ne_true]

/-- What is read as an integer is digits that denote it, and 128 bits hold it. -/
theorem readInteger?_spec (h : readInteger? negative s = some w) :
    s ≠ [] ∧ (∀ c ∈ s, c.isDigit = true) ∧ w = signed negative (digitsValue s) ∧ fitsWord w = true := by
  unfold readInteger? at h
  split at h
  · cases h
  · next hdigits =>
    obtain ⟨hne, hall⟩ := isEmpty_or_all_eq_false.1 (Bool.eq_false_iff.2 hdigits)
    dsimp only at h
    split at h
    · next hfits =>
      cases h
      exact ⟨hne, hall, rfl, hfits⟩
    · cases h

/-- **What is read is one of three things**: an integer in hexadecimal, one in decimal, or else a double. -/
theorem read?_cases {number : Number} (h : read? s = some number) :
    ∃ negative body, splitSign (numeralOf s) = (negative, body) ∧
      ((∃ digits m, afterHexMark? body = some digits ∧ hexValue? digits = some m ∧ m < wordLimit ∧
          number = .integer (signed negative m)) ∨
        (∃ w, readInteger? negative body = some w ∧ number = .integer w) ∨
        ∃ d, readDecimal? body = some d ∧ number = .float (.ofDecimal negative d)) := by
  unfold read? at h
  dsimp only at h
  refine ⟨(splitSign (numeralOf s)).1, (splitSign (numeralOf s)).2, rfl, ?_⟩
  split at h
  · next digits hdigits =>
    unfold readHex? at h
    split at h
    · next m hm =>
      split at h
      · next hlt => exact .inl ⟨digits, m, hdigits, hm, hlt, (Option.some.inj h).symm⟩
      · cases h
    · cases h
  · split at h
    · next w hw => exact .inr (.inl ⟨w, hw, (Option.some.inj h).symm⟩)
    · obtain ⟨d, hd, hnumber⟩ := Option.map_eq_some_iff.1 h
      exact .inr (.inr ⟨d, hd, hnumber.symm⟩)

/-- **Every spelling of an integer that 128 bits hold is read as it.** -/
theorem read?_of_spellsInteger (h : SpellsInteger s w) (hw : fitsWord w = true) :
    read? s = some (.integer w) := by
  cases h with
  | @mk sign digits negative hs hne hd hf =>
    have hnumeral := numeralOf_integer hs hd hf
    have hsplit : splitSign (numeralOf s) = (negative, digits) := by
      rw [hnumeral]
      exact splitSign_append hs (ne_sign_of_isDigit hd)
    have hmark : afterHexMark? digits = none := by
      refine afterHexMark?_eq_none (fun hx => ?_) fun hx => ?_
      · exact absurd (hd _ hx) (by decide)
      · exact absurd (hd _ hx) (by decide)
    unfold read?
    rw [hsplit]
    dsimp only
    rw [hmark]
    dsimp only
    rw [readInteger?_eq hne hd, if_pos hw]

end Number

end EventSieve
