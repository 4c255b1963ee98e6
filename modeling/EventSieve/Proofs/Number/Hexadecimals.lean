import EventSieve.Proofs.Number.Numerals

/-!
# Integers in hexadecimal

A hexadecimal numeral has its digits read first and its sign put before them afterwards, and the digits alone
have to be below `2¹²⁷`. A decimal numeral is taken with its sign. So the two agree on all integers of 128 bits
but the least one, `-2¹²⁷`, whose hexadecimal digits are too large without the sign.

* `SpellsHex`: the hexadecimal spellings of an integer.
* `spellsHex_zeros`: its digits, in either letter case and after any zeros, are one of them.
* `read?_of_spellsHex`: **a hexadecimal spelling is read as its integer, if the digits are below `2¹²⁷`.**
* `read?_decimal_and_hex`: which spellings of an integer are read alike.
-/

namespace EventSieve.Number

open Text

variable {s t sign digits : List Char} {c : Char} {negative : Bool} {mark : Char} {k m n : ℕ} {v : ℤ}

/-- The hexadecimal spellings of an integer: commas apart, an optional sign, `0x` or `0X`, and digits. -/
inductive SpellsHex : List Char → ℤ → Prop
  | mk {s : List Char} {negative : Bool} {m : ℕ} : HexNumeral (s.filter (· ≠ ',')) negative m →
      SpellsHex s (signed negative m)

/-- A sign, the mark, any zeros and the hexadecimal digits of a natural number in either letter case, with
commas anywhere, spell it. -/
theorem spellsHex_zeros (hs : SignSpelled sign negative) (hm : mark = 'x' ∨ mark = 'X')
    (hd : List.Forall₂ (fun c d => c = d ∨ c = d.toUpper) digits (Nat.toDigits 16 n))
    (h : s.filter (· ≠ ',') = sign ++ '0' :: mark :: (List.replicate k '0' ++ digits)) :
    SpellsHex s (signed negative n) := by
  apply SpellsHex.mk
  rw [h]
  exact .mk hs hm ((hexSpelled_toDigits hd).zeros k)

/-- **A hexadecimal spelling is read as its integer**, if its digits without the sign are below `2¹²⁷`, and
else not at all. -/
theorem read?_of_spellsHex (h : SpellsHex s v) :
    read? s = if v.natAbs < wordLimit then some (.integer v) else none := by
  cases h with
  | @mk negative m h =>
    have hself : numeralOf s = s.filter (· ≠ ',') := by
      refine numeralOf_eq rfl ?_
      intro c hc
      generalize s.filter (· ≠ ',') = numeral at h hc
      cases h with
      | @mk sign digits mark _ _ hs hm hd =>
        rcases List.mem_append.1 hc with hc | hc
        · exact isBlank_of_mem_sign hs c hc
        · simp only [List.mem_cons] at hc
          rcases hc with rfl | rfl | hc
          · decide
          · rcases hm with rfl | rfl <;> decide
          · exact hd.not_isBlank c hc
    have habs : (signed negative m).natAbs = m := by
      cases negative <;> simp [signed]
    rw [← hself] at h
    rw [read?_of_hexNumeral h, habs]

/-- **The spellings of an integer of 128 bits are read alike**, in decimal and in hexadecimal, with any zeros in
front, commas anywhere and the digits in either letter case: all are read as the integer, except the
hexadecimal ones of the least integer, which are not read at all. -/
theorem read?_decimal_and_hex (hlow : -2 ^ 127 ≤ v) (hhigh : v ≤ 2 ^ 127 - 1) (hs : SpellsInteger s v)
    (ht : SpellsHex t v) :
    read? s = some (.integer v) ∧ (v ≠ -2 ^ 127 → read? t = some (.integer v)) ∧
      (v = -2 ^ 127 → read? t = none) := by
  have hlimit : wordLimit = 2 ^ 127 := by norm_num
  have hfits : fitsWord v = true := fitsWord_iff.2 (by omega)
  refine ⟨read?_of_spellsInteger hs hfits, ?_, ?_⟩
  · intro hv
    rw [read?_of_spellsHex ht, if_pos (by omega)]
  · intro hv
    rw [read?_of_spellsHex ht, if_neg (by omega)]

/-- The integer after the least one, in decimal and in hexadecimal digits of both letter cases. -/
theorem read?_decimal_and_hex_mixed :
    read? "-170,141183460469231731687303715884105727".toList = some (.integer (-2 ^ 127 + 1)) ∧
      read? "-0,X007fFfffFF,FFFFFFFFffffffffFFFFFFFF".toList = some (.integer (-2 ^ 127 + 1)) := by
  have hdecimal : SpellsInteger "-170,141183460469231731687303715884105727".toList (-2 ^ 127 + 1) :=
    @SpellsInteger.mk _ _ "170141183460469231731687303715884105727".toList _ .minus (by decide) (by decide)
      (by decide)
  have hhex : SpellsHex "-0,X007fFfffFF,FFFFFFFFffffffffFFFFFFFF".toList (-2 ^ 127 + 1) :=
    @spellsHex_zeros _ _ "7fFfffFFFFFFFFFFffffffffFFFFFFFF".toList _ _ 2 (2 ^ 127 - 1) .minus (.inr rfl)
      (by decide) (by decide)
  obtain ⟨hread, hread', -⟩ := read?_decimal_and_hex (by omega) (by omega) hdecimal hhex
  exact ⟨hread, hread' (by omega)⟩

/-- **The least integer has no hexadecimal spelling that is read**: `2¹²⁷`, its digits without the sign, is past
the range. In decimal it is read. -/
theorem read?_hex_least :
    SpellsInteger "-170141183460469231731687303715884105728".toList (-2 ^ 127) ∧
      SpellsHex "-0x80000000000000000000000000000000".toList (-2 ^ 127) ∧
      read? "-170141183460469231731687303715884105728".toList = some (.integer (-2 ^ 127)) ∧
      read? "-0x80000000000000000000000000000000".toList = none := by
  have hdecimal : SpellsInteger "-170141183460469231731687303715884105728".toList (-2 ^ 127) :=
    @SpellsInteger.mk _ _ "170141183460469231731687303715884105728".toList _ .minus (by decide) (by decide)
      (by decide)
  have hhex : SpellsHex "-0x80000000000000000000000000000000".toList (-2 ^ 127) :=
    @spellsHex_zeros _ _ "80000000000000000000000000000000".toList _ _ 0 (2 ^ 127) .minus (.inl rfl)
      (by decide) (by decide)
  refine ⟨hdecimal, hhex, read?_of_spellsInteger hdecimal (by decide), ?_⟩
  rw [read?_of_spellsHex hhex, if_neg (by decide)]

end EventSieve.Number
