import EventSieve.Proofs.Binary64.Nearest
import EventSieve.Proofs.Expr.Equality
import EventSieve.Proofs.Number.Decimals

/-!
# The language of numerals

Which texts denote numbers, and which numbers. A numeral is a text without commas and without blanks
around it.

* `HexNumeral`, `SpellsInteger`, `DecimalNumeral`: the three kinds of numerals.
* `read?_of_hexNumeral`, `read?_of_spellsInteger`, `read?_of_decimalNumeral`: what each kind is read as.
* `numeral_of_read?`: what is read is a numeral.
* `read?_language`: **exactly the numerals are read, as the numbers that they denote.**
-/

namespace EventSieve.Number

open Text

variable {s t text body sign digits : List Char} {d : Decimal} {c : Char} {negative : Bool}
  {m n p coefficient : ℕ} {x y w : ℤ}

/-- The hexadecimal numerals: an optional sign, `0x` or `0X`, and digits. -/
inductive HexNumeral : List Char → Bool → ℕ → Prop
  | mk {sign digits : List Char} {mark : Char} {negative : Bool} {m : ℕ} : SignSpelled sign negative →
      mark = 'x' ∨ mark = 'X' → HexSpelled digits m →
      HexNumeral (sign ++ '0' :: mark :: digits) negative m

/-- The decimal numerals: an optional sign, digits with or without a point, and an optional exponent. The
digits denote the coefficient, `p` of them follow the point, and the exponent is `x` but counts as `y`. -/
inductive DecimalNumeral : List Char → Bool → ℕ → ℕ → ℤ → ℤ → Prop
  | mk {sign mantissa exponent : List Char} {negative : Bool} {coefficient p : ℕ} {x y : ℤ} :
      SignSpelled sign negative → MantissaSpelled mantissa coefficient p → ExponentSpelled exponent x y →
      DecimalNumeral (sign ++ (mantissa ++ exponent)) negative coefficient p x y

/-- The characters of a decimal numeral. -/
theorem DecimalNumeral.mem (h : DecimalNumeral s negative coefficient p x y) (hc : c ∈ s) :
    c.isDigit = true ∨ c = '.' ∨ c = 'e' ∨ c = 'E' ∨ c = '-' ∨ c = '+' := by
  cases h with
  | mk hsign hmantissa hexponent =>
    rcases List.mem_append.1 hc with hc | hc
    · have hmem := hsign.mem hc
      tauto
    · rcases List.mem_append.1 hc with hc | hc
      · have hmem := hmantissa.mem hc
        tauto
      · have hmem := hexponent.mem hc
        tauto

/-- A numeral has no commas left in it. -/
theorem filter_numeralOf (text : List Char) : (numeralOf text).filter (· ≠ ',') = numeralOf text := by
  rw [List.filter_eq_self]
  intro c hc
  obtain ⟨a, b, -, -, hcut⟩ := exists_trim (text.filter (· ≠ ','))
  have hmem : c ∈ text.filter (· ≠ ',') := by
    rw [hcut]
    exact List.mem_append_left _ (List.mem_append_right _ hc)
  exact (List.mem_filter.1 hmem).2

/-- A numeral is left as it is. -/
theorem numeralOf_numeralOf (text : List Char) : numeralOf (numeralOf text) = numeralOf text := by
  change trim ((numeralOf text).filter (· ≠ ',')) = numeralOf text
  rw [filter_numeralOf]
  exact trim_eq_self (stopsAt_trim _) (stopsAt_reverse_trim _)

theorem read?_numeralOf (text : List Char) : read? (numeralOf text) = read? text := by
  unfold read?
  rw [numeralOf_numeralOf]

/-- A decimal numeral is left as it is. -/
theorem DecimalNumeral.numeralOf_eq (h : DecimalNumeral s negative coefficient p x y) : numeralOf s = s := by
  have hplain : ∀ c ∈ s, c ≠ ',' ∧ isBlank c = false := by
    intro c hc
    rcases h.mem hc with hdigit | rfl | rfl | rfl | rfl | rfl
    · exact ⟨ne_of_isDigit hdigit (by decide), isBlank_of_isDigit hdigit⟩
    all_goals decide
  refine Number.numeralOf_eq ?_ fun c hc => (hplain c hc).2
  rw [List.filter_eq_self]
  intro c hc
  exact decide_eq_true (hplain c hc).1

/-- What follows the mark of a hexadecimal number. -/
theorem afterHexMark?_eq_some (h : afterHexMark? s = some digits) :
    ∃ mark, (mark = 'x' ∨ mark = 'X') ∧ s = '0' :: mark :: digits := by
  unfold afterHexMark? at h
  split at h
  · cases h
    exact ⟨'x', .inl rfl, rfl⟩
  · cases h
    exact ⟨'X', .inr rfl, rfl⟩
  · cases h

/-- **Hexadecimal numerals** are read as integers below `2¹²⁷`, and not at all if they are larger. -/
theorem read?_of_hexNumeral (h : HexNumeral (numeralOf text) negative m) :
    read? text = if m < wordLimit then some (.integer (signed negative m)) else none := by
  generalize hs : numeralOf text = s at h
  cases h with
  | @mk sign digits mark negative m hsign hmark hdigits =>
    have hsplit : splitSign (numeralOf text) = (negative, '0' :: mark :: digits) := by
      rw [hs]
      refine splitSign_append hsign fun c hc => ?_
      cases hc
      decide
    have hhex : afterHexMark? ('0' :: mark :: digits) = some digits := by
      rcases hmark with rfl | rfl
      · rfl
      · rfl
    unfold read?
    rw [hsplit]
    dsimp only
    rw [hhex]
    dsimp only
    unfold readHex?
    rw [hexValue?_iff.2 hdigits]

/-- **Decimal numerals** that are no integers of 128 bits are read as doubles. -/
theorem read?_of_decimalNumeral (h : DecimalNumeral (numeralOf text) negative coefficient p x y)
    (hinteger : ∀ w, SpellsInteger (numeralOf text) w → fitsWord w = false) :
    read? text = some (.float (.ofDecimal negative ⟨coefficient, y - p⟩)) := by
  have hfilter := filter_numeralOf text
  have hread : read? text = read? (numeralOf text) := (read?_numeralOf text).symm
  have hnumeral := numeralOf_numeralOf text
  generalize numeralOf text = s at h hinteger hfilter hread hnumeral
  cases h with
  | @mk sign mantissa exponent negative coefficient p x y hsign hmantissa hexponent =>
    have hmem : ∀ c ∈ mantissa ++ exponent, c.isDigit = true ∨ c = '.' ∨ c = 'e' ∨ c = 'E' ∨
        c = '-' ∨ c = '+' :=
      fun c hc => (DecimalNumeral.mk .none hmantissa hexponent).mem hc
    have hsplit : splitSign (sign ++ (mantissa ++ exponent)) = (negative, mantissa ++ exponent) := by
      refine splitSign_append hsign fun c hc => ?_
      rw [List.head?_append_of_ne_nil _ hmantissa.ne_nil] at hc
      rcases hmantissa.mem (List.mem_of_head? hc) with hdigit | rfl
      · exact ⟨ne_of_isDigit hdigit (by decide), ne_of_isDigit hdigit (by decide)⟩
      · decide
    have hmark : afterHexMark? (mantissa ++ exponent) = none := by
      refine afterHexMark?_eq_none (fun hx => ?_) fun hx => ?_
      · exact absurd (hmem _ hx) (by decide)
      · exact absurd (hmem _ hx) (by decide)
    have hnone : readInteger? negative (mantissa ++ exponent) = none := by
      rw [Option.eq_none_iff_forall_not_mem]
      intro w hw
      obtain ⟨hne, hall, rfl, hfits⟩ := readInteger?_spec hw
      have hspelled := hinteger _ (.mk hsign hne hall hfilter)
      rw [hfits] at hspelled
      exact Bool.noConfusion hspelled
    rw [hread]
    unfold read?
    rw [hnumeral, hsplit]
    dsimp only
    rw [hmark]
    dsimp only
    rw [hnone, readDecimal?_append hmantissa hexponent]
    rfl

/-- **What is read is a numeral.** -/
theorem numeral_of_read? {number : Number} (h : read? text = some number) :
    (∃ negative m, HexNumeral (numeralOf text) negative m) ∨
      ∃ negative coefficient p x y, DecimalNumeral (numeralOf text) negative coefficient p x y := by
  obtain ⟨sign, hsign, hs⟩ := splitSign_spec (numeralOf text)
  obtain ⟨negative, body, hcut, hcases⟩ := read?_cases h
  rw [hcut] at hsign hs
  dsimp only at hsign hs
  rw [hs]
  rcases hcases with ⟨digits, m, hdigits, hm, -, -⟩ | ⟨w, hw, -⟩ | ⟨d, hd, -⟩
  · obtain ⟨mark, hmark, rfl⟩ := afterHexMark?_eq_some hdigits
    exact .inl ⟨negative, m, .mk hsign hmark (hexValue?_iff.1 hm)⟩
  · -- an integer is a mantissa alone
    obtain ⟨hne, hall, -, -⟩ := readInteger?_spec hw
    have hnumeral := DecimalNumeral.mk hsign (.whole hne hall) .none
    rw [List.append_nil] at hnumeral
    exact .inr ⟨_, _, _, _, _, hnumeral⟩
  · obtain ⟨mantissa, exponent, _, _, _, _, hmantissa, hexponent, rfl, -⟩ := readDecimal?_iff.1 hd
    exact .inr ⟨_, _, _, _, _, .mk hsign hmantissa hexponent⟩

/-- **Exactly the numerals are read, as the numbers that they denote.** A hexadecimal numeral is an integer
if it is below `2¹²⁷`, and else nothing. A decimal numeral is an integer if it is spelled so and 128 bits hold
it, and else the double of its sign that is nearest to its value, an infinity from the middle between the
largest finite double and `2¹⁰²⁴` on. Of an exponent count all digits, unless it is 655360 or more; and those
that do not count matter only after a mantissa tens of thousands of characters long. Nothing else is read,
and a NaN is never the result. -/
theorem read?_language (text : List Char) :
    (∀ negative m, HexNumeral (numeralOf text) negative m →
      read? text = if m < 2 ^ 127 then some (.integer (signed negative m)) else none) ∧
    (∀ w, SpellsInteger (numeralOf text) w → -2 ^ 127 ≤ w → w < 2 ^ 127 →
      read? text = some (.integer w)) ∧
    (∀ negative coefficient p x y, DecimalNumeral (numeralOf text) negative coefficient p x y →
      (∀ w, SpellsInteger (numeralOf text) w → ¬ (-2 ^ 127 ≤ w ∧ w < 2 ^ 127)) →
      ∃ f, read? text = some (.float f) ∧ f.negative = negative ∧
        NearestTo f.magnitude (Decimal.mk coefficient (y - p)).value ∧
        (f.isFinite = false ↔ 2 ^ 1024 - 2 ^ 970 ≤ (Decimal.mk coefficient (y - p)).value) ∧
        (x.natAbs < 655360 ∨ (numeralOf text).length < 65000 →
          NearestTo f.magnitude (Decimal.mk coefficient (x - p)).value)) ∧
    ((∀ negative m, ¬ HexNumeral (numeralOf text) negative m) →
      (∀ negative coefficient p x y, ¬ DecimalNumeral (numeralOf text) negative coefficient p x y) →
      read? text = none) ∧
    ∀ f, read? text = some (.float f) → f.isNaN = false := by
  refine ⟨fun negative m h => ?_, fun w h hlow hhigh => ?_, fun negative coefficient p x y h hinteger => ?_,
    fun hhex hdecimal => ?_, fun f => isNaN_of_read?⟩
  · have hlimit : wordLimit = 2 ^ 127 := by norm_num
    rw [read?_of_hexNumeral h, hlimit]
  · rw [← read?_numeralOf]
    exact read?_of_spellsInteger h (fitsWord_iff.2 ⟨hlow, hhigh⟩)
  · have hread := read?_of_decimalNumeral h fun w hw =>
      Bool.eq_false_iff.2 (mt fitsWord_iff.1 (hinteger w hw))
    have hnearest := Binary64.nearestTo_ofDecimal negative ⟨coefficient, y - p⟩
    refine ⟨_, hread, rfl, hnearest, ?_, fun hexact => ?_⟩
    · rw [← hnearest.eq_infinity_iff, Binary64.isFinite, decide_eq_false_iff_not, not_lt]
      exact ⟨Nat.le_antisymm hnearest.le_infinity, Nat.le_of_eq ∘ Eq.symm⟩
    · have hvalue := (Decimal.mk coefficient (x - p)).nearestTo_magnitude
      rw [Binary64.magnitude_ofDecimal]
      generalize numeralOf text = s at h hexact
      cases h with
      | mk hsign hmantissa hexponent =>
        rwa [magnitude_exact hmantissa hexponent (hexact.imp_right fun hlength => ?_)] at hvalue
        rw [List.length_append, List.length_append] at hlength
        omega
  · rw [Option.eq_none_iff_forall_not_mem]
    intro number hread
    rcases numeral_of_read? hread with ⟨negative, m, h⟩ | ⟨negative, coefficient, p, x, y, h⟩
    · exact hhex negative m h
    · exact hdecimal negative coefficient p x y h

/-- A hexadecimal numeral, an integer with a comma that groups its digits, and a double between blanks. -/
theorem read?_language_samples :
    read? ['0', 'x', '1', 'F'] = some (.integer 31) ∧
      read? ['-', '1', ',', '0', '0', '1'] = some (.integer (-1001)) ∧
      ∃ f, read? [' ', '-', '.', '5', 'E', '1', ' '] = some (.float f) ∧ f.negative = true ∧
        NearestTo f.magnitude (Decimal.mk 5 (1 - 1)).value := by
  refine ⟨?_, ?_, ?_⟩
  · have hnumeral : HexNumeral (numeralOf ['0', 'x', '1', 'F']) false 31 := by
      have hdigits : HexSpelled (['1'] ++ ['F']) (1 * 16 + 15) := .snoc (.digit (by decide)) (by decide)
      exact .mk .none (.inl rfl) hdigits
    exact ((read?_language _).1 _ _ hnumeral).trans (if_pos (by norm_num))
  · have hspelled : SpellsInteger (numeralOf ['-', '1', ',', '0', '0', '1']) (-1001) :=
      .mk .minus (List.cons_ne_nil '1' ['0', '0', '1']) (by decide) rfl
    exact (read?_language _).2.1 _ hspelled (by norm_num) (by norm_num)
  · have hnumeral : DecimalNumeral (numeralOf [' ', '-', '.', '5', 'E', '1', ' ']) true 5 1 1 1 := by
      have hmantissa : MantissaSpelled ([] ++ '.' :: ['5']) 5 1 := .point (by decide) (by decide)
      have hcounts : Counts (['1'] ++ []) 1 := .mk (by decide) (.inl rfl)
      have hexponent : ExponentSpelled ['E', '1'] 1 1 := .mk (.inr rfl) .none (by decide) (by decide) hcounts
      exact .mk .minus hmantissa hexponent
    have hpoint : '.' ∈ numeralOf [' ', '-', '.', '5', 'E', '1', ' '] := by decide
    obtain ⟨f, hread, hsign, -, -, hexact⟩ :=
      (read?_language _).2.2.1 _ _ _ _ _ hnumeral fun w hw => absurd (hw.mem hpoint) (by decide)
    exact ⟨f, hread, hsign, hexact (.inl (by decide))⟩

/-- **An exponent does not always count in full**: with 65536 zeros after its point, `0.0…01e655370` is worth
`10 ^ 589833`, far past all doubles, and it is read as one, since the last digit does not count. -/
theorem read?_uncounted_digit :
    let text := '0' :: '.' :: (List.replicate 65536 '0' ++ ['1']) ++ ['e', '6', '5', '5', '3', '7', '0']
    DecimalNumeral (numeralOf text) false 1 65537 655370 65537 ∧
      read? text = some (.float (.ofBits 0x3FF0000000000000)) ∧
      ¬ NearestTo (Binary64.ofBits 0x3FF0000000000000).magnitude (Decimal.mk 1 (655370 - 65537)).value := by
  intro text
  have hcounts : Counts (['6', '5', '5', '3', '7'] ++ ['0']) 65537 := .mk (by decide) (.inr (by decide))
  have hexponent : ExponentSpelled ['e', '6', '5', '5', '3', '7', '0'] 655370 65537 :=
    .mk (.inl rfl) .none (by decide) (by decide) hcounts
  have hnumeral : DecimalNumeral text false 1 65537 655370 65537 :=
    .mk .none (mantissaSpelled_small 65536) hexponent
  have hself : numeralOf text = text := hnumeral.numeralOf_eq
  have hpoint : '.' ∈ text := List.mem_cons_of_mem _ List.mem_cons_self
  refine ⟨hself.symm ▸ hnumeral, ?_, fun hnearest => ?_⟩
  · have hone : Binary64.ofDecimal false ⟨1, 65537 - 65537⟩ = .ofBits 0x3FF0000000000000 := by decide +kernel
    rw [← hone]
    refine read?_of_decimalNumeral (hself.symm ▸ hnumeral) fun w hw => ?_
    rw [hself] at hw
    exact absurd (hw.mem hpoint) (by decide)
  · have hlarge := (Decimal.mk 1 (655370 - 65537)).nearestTo_magnitude
    have hinfinite : (Decimal.mk 1 (655370 - 65537)).magnitude = infinityMagnitude :=
      Decimal.magnitude_of_large (by decide) (by decide)
    have heq := hnearest.unique hlarge
    rw [hinfinite] at heq
    exact absurd heq (by decide)

end EventSieve.Number
