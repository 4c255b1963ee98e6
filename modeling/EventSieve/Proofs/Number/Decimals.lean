import EventSieve.Proofs.Decimal.Nearest
import EventSieve.Proofs.Number.Integers

/-!
# Decimal numerals

* `Counts`: what the digits of an exponent count for: all of them, unless they denote far more than any
  double needs.
* `MantissaSpelled`, `ExponentSpelled`: the spellings of the two parts of a decimal numeral.
* `readDecimal?_iff`: **what is read as a decimal number is spelled so, and nothing else is.**
* `magnitude_exact`: **the digits of an exponent that do not count make no difference** to a mantissa of
  fewer than 65000 characters.
-/

namespace EventSieve

open Text

variable {s t digits mantissa exponent whole fraction : List Char} {d : Decimal} {c k m n p : ℕ} {x y : ℤ}

namespace Number

/-- What the digits of an exponent count for. They are taken one by one for as long as those before denote
less than 65536. -/
inductive Counts : List Char → ℕ → Prop
  | mk {counted rest : List Char} : digitsValue counted.dropLast < 65536 →
      rest = [] ∨ 65536 ≤ digitsValue counted → Counts (counted ++ rest) (digitsValue counted)

/-- **Digits are read as what they count for.** -/
theorem counts_exponentValue (digits : List Char) : Counts digits (exponentValue digits) := by
  induction digits using List.reverseRecOn with
  | nil => exact @Counts.mk [] [] (by decide) (.inl rfl)
  | append_singleton s c ih =>
    have hstep : exponentValue (s ++ [c]) = pushExponentDigit (exponentValue s) c := by
      unfold exponentValue
      rw [List.foldl_append]
      rfl
    rw [hstep]
    generalize exponentValue s = v at ih
    cases ih with
    | @mk counted rest hlt hrest =>
      unfold pushExponentDigit
      by_cases hv : digitsValue counted < 65536
      · -- one more digit counts
        have hnil : rest = [] := hrest.resolve_right (Nat.not_le.2 hv)
        rw [if_pos hv, hnil, List.append_nil, ← digitsValue_concat]
        have hcounts : Counts (counted ++ [c] ++ []) (digitsValue (counted ++ [c])) := by
          refine .mk ?_ (.inl rfl)
          rwa [List.dropLast_concat]
        rwa [List.append_nil] at hcounts
      · rw [if_neg hv, List.append_assoc]
        exact .mk hlt (.inr (Nat.le_of_not_lt hv))

/-- **Digits count for one number only.** Of two runs that count the shorter one denotes too much for the
other one to go on. -/
theorem Counts.unique (hm : Counts digits m) (hn : Counts digits n) : m = n := by
  have hlonger : ∀ {s t u v : List Char}, s ++ t = u ++ v → digitsValue u.dropLast < 65536 →
      t = [] ∨ 65536 ≤ digitsValue s → u.length ≤ s.length := by
    intro s t u v h hlt ht
    by_contra hlen
    obtain ⟨w, rfl, rfl⟩ | ⟨w, rfl, -⟩ := List.append_eq_append_iff.1 h
    · rcases List.eq_nil_or_concat' w with rfl | ⟨w, c, rfl⟩
      · rw [List.append_nil] at hlen
        exact hlen (Nat.le_refl _)
      · have hlimit : 65536 ≤ digitsValue s := by
          refine ht.resolve_left ?_
          intro hnil
          have hlength := congrArg List.length hnil
          rw [List.length_append, List.length_append] at hlength
          exact absurd hlength (by simp)
        rw [← List.append_assoc, List.dropLast_concat] at hlt
        exact absurd (digitsValue_le_append s w) (by omega)
    · rw [List.length_append] at hlen
      omega
  cases hm with
  | @mk counted rest hlt hrest =>
    generalize hdigits : counted ++ rest = digits at hn
    cases hn with
    | @mk counted' rest' hlt' hrest' =>
      have hlen : counted.length = counted'.length :=
        Nat.le_antisymm (hlonger hdigits.symm hlt hrest') (hlonger hdigits hlt' hrest)
      rw [(List.append_inj hdigits hlen).1]

/-- Digits that do not all count denote much, and so do those that count. -/
theorem Counts.eq_or_le (h : Counts digits n) :
    n = digitsValue digits ∨ 65536 ≤ n ∧ 655360 ≤ digitsValue digits := by
  cases h with
  | @mk counted rest hlt hrest =>
    rcases hrest with rfl | hle
    · left
      rw [List.append_nil]
    · cases rest with
      | nil =>
        left
        rw [List.append_nil]
      | cons d rest =>
        right
        refine ⟨hle, Nat.le_trans ?_ (digitsValue_le_append (counted ++ [d]) rest |>.trans_eq ?_)⟩
        · rw [digitsValue_concat]
          omega
        · rw [List.append_assoc]
          rfl

/-- The spellings of an exponent: nothing at all, or `e` or `E`, an optional sign and digits. The first number
is what the digits denote, the second one what they count for. -/
inductive ExponentSpelled : List Char → ℤ → ℤ → Prop
  | none : ExponentSpelled [] 0 0
  | mk {mark : Char} {sign digits : List Char} {negative : Bool} {n : ℕ} : mark = 'e' ∨ mark = 'E' →
      SignSpelled sign negative → digits ≠ [] → (∀ c ∈ digits, c.isDigit = true) → Counts digits n →
      ExponentSpelled (mark :: (sign ++ digits)) (signed negative (digitsValue digits)) (signed negative n)

/-- **What is read as an exponent is spelled so**, and nothing else is. -/
theorem readExponent?_iff : readExponent? s = some y ↔ ∃ x, ExponentSpelled s x y := by
  constructor
  · intro h
    cases s with
    | nil =>
      cases h
      exact ⟨0, .none⟩
    | cons mark s =>
      unfold readExponent? at h
      dsimp only at h
      split at h
      · next hmark =>
        obtain ⟨sign, hsign, hs⟩ := splitSign_spec s
        split at h
        · cases h
        · next hdigits =>
          cases h
          obtain ⟨hne, hall⟩ := isEmpty_or_all_eq_false.1 (Bool.eq_false_iff.2 hdigits)
          have hspelled := ExponentSpelled.mk hmark hsign hne hall (counts_exponentValue _)
          rw [← hs] at hspelled
          exact ⟨_, hspelled⟩
      · cases h
  · rintro ⟨x, h⟩
    cases h with
    | none => rfl
    | @mk mark sign digits negative n hmark hsign hne hall hcounts =>
      have hsplit : splitSign (sign ++ digits) = (negative, digits) :=
        splitSign_append hsign (ne_sign_of_isDigit hall)
      unfold readExponent?
      dsimp only
      rw [if_pos hmark, hsplit]
      dsimp only
      rw [isEmpty_or_all_eq_false.2 ⟨hne, hall⟩, if_neg Bool.false_ne_true,
        (counts_exponentValue digits).unique hcounts]

/-- An exponent starts neither with a digit nor with a point. -/
theorem ExponentSpelled.head?_ne (h : ExponentSpelled s x y) :
    StopsAt Char.isDigit s ∧ s.head? ≠ some '.' := by
  cases h with
  | none => exact ⟨stopsAt_nil, nofun⟩
  | mk hmark =>
    rcases hmark with rfl | rfl
    · exact ⟨stopsAt_cons.2 (by decide), fun h => absurd (Option.some.inj h) (by decide)⟩
    · exact ⟨stopsAt_cons.2 (by decide), fun h => absurd (Option.some.inj h) (by decide)⟩

theorem ExponentSpelled.mem (h : ExponentSpelled s x y) {c : Char} (hc : c ∈ s) :
    c.isDigit = true ∨ c = 'e' ∨ c = 'E' ∨ c = '-' ∨ c = '+' := by
  cases h with
  | none => exact absurd hc List.not_mem_nil
  | mk hmark hsign hne hall hcounts =>
    rcases List.mem_cons.1 hc with rfl | hc
    · tauto
    · rcases List.mem_append.1 hc with hc | hc
      · have hmem := hsign.mem hc
        tauto
      · exact .inl (hall c hc)

/-- The spellings of a mantissa: digits, with or without a point before, after or between them. The first
number is what the digits denote without the point, the second one how many follow it. -/
inductive MantissaSpelled : List Char → ℕ → ℕ → Prop
  | whole {digits : List Char} : digits ≠ [] → (∀ c ∈ digits, c.isDigit = true) →
      MantissaSpelled digits (digitsValue digits) 0
  | point {whole fraction : List Char} : whole ++ fraction ≠ [] →
      (∀ c ∈ whole ++ fraction, c.isDigit = true) →
      MantissaSpelled (whole ++ '.' :: fraction) (digitsValue (whole ++ fraction)) fraction.length

theorem MantissaSpelled.mem (h : MantissaSpelled s c p) {d : Char} (hd : d ∈ s) :
    d.isDigit = true ∨ d = '.' := by
  cases h with
  | whole hne hall => exact .inl (hall d hd)
  | @point whole fraction hne hall =>
    rcases List.mem_append.1 hd with hd | hd
    · exact .inl (hall d (List.mem_append_left _ hd))
    · rcases List.mem_cons.1 hd with rfl | hd
      · exact .inr rfl
      · exact .inl (hall d (List.mem_append_right _ hd))

/-- The digits of a mantissa denote no more than their number allows. -/
theorem MantissaSpelled.lt_pow (h : MantissaSpelled s c p) : c < 10 ^ s.length ∧ p ≤ s.length := by
  cases h with
  | whole hne hall => exact ⟨digitsValue_lt hall, Nat.zero_le _⟩
  | @point whole fraction hne hall =>
    rw [List.length_append, List.length_cons]
    constructor
    · refine Nat.lt_of_lt_of_le (digitsValue_lt hall) (Nat.pow_le_pow_right (by decide) ?_)
      rw [List.length_append]
      omega
    · omega

theorem MantissaSpelled.ne_nil (h : MantissaSpelled s c p) : s ≠ [] := by
  cases h with
  | whole hne hall => exact hne
  | point hne hall => exact List.append_ne_nil_of_right_ne_nil _ (List.cons_ne_nil _ _)

/-- A point, zeros and a one. -/
theorem mantissaSpelled_small (k : ℕ) :
    MantissaSpelled ('0' :: '.' :: (List.replicate k '0' ++ ['1'])) 1 (k + 1) := by
  have hvalue : digitsValue (['0'] ++ (List.replicate k '0' ++ ['1'])) = 1 := by
    change digitsValue (List.replicate (k + 1) '0' ++ ['1']) = 1
    rw [digitsValue_zeros]
    rfl
  have hlength : (List.replicate k '0' ++ ['1']).length = k + 1 := by
    rw [List.length_append, List.length_replicate]
    rfl
  have hmantissa : MantissaSpelled (['0'] ++ '.' :: (List.replicate k '0' ++ ['1']))
      (digitsValue (['0'] ++ (List.replicate k '0' ++ ['1']))) (List.replicate k '0' ++ ['1']).length := by
    refine .point (List.cons_ne_nil _ _) fun c hc => ?_
    rcases List.mem_append.1 hc with hc | hc
    · rw [List.mem_singleton.1 hc]
      decide
    · rcases List.mem_append.1 hc with hc | hc
      · exact isDigit_replicate hc
      · rw [List.mem_singleton.1 hc]
        decide
  rwa [hvalue, hlength] at hmantissa

theorem isEmpty_and_eq_false : (s.isEmpty && t.isEmpty) = false ↔ s ++ t ≠ [] := by
  cases s with
  | nil => simp
  | cons c s => simp

/-- A mantissa before an exponent is read with it. -/
theorem readDecimal?_append (hm : MantissaSpelled mantissa c p) (he : ExponentSpelled exponent x y) :
    readDecimal? (mantissa ++ exponent) = some ⟨c, y - p⟩ := by
  obtain ⟨hstop, hpoint⟩ := he.head?_ne
  have hread : readExponent? exponent = some y := readExponent?_iff.2 ⟨x, he⟩
  unfold readDecimal?
  cases hm with
  | whole hne hall =>
    have hfraction : splitFraction exponent = ([], exponent) := by
      unfold splitFraction
      split
      · exact absurd rfl hpoint
      · rfl
    rw [span_of_stopsAt hall hstop]
    dsimp only
    rw [hfraction, List.isEmpty_eq_false_iff.2 hne, Bool.false_and, if_neg Bool.false_ne_true, hread,
      List.append_nil]
    rfl
  | @point whole fraction hne hall =>
    have hwhole : ∀ c ∈ whole, c.isDigit = true := fun c hc => hall c (List.mem_append_left _ hc)
    have hrest : ∀ c ∈ fraction, c.isDigit = true := fun c hc => hall c (List.mem_append_right _ hc)
    have hfraction : splitFraction ('.' :: (fraction ++ exponent)) = (fraction, exponent) :=
      span_of_stopsAt hrest hstop
    have hempty : (whole.isEmpty && fraction.isEmpty) = false := isEmpty_and_eq_false.2 hne
    rw [List.append_assoc, List.cons_append, span_of_stopsAt hwhole (stopsAt_cons.2 (by decide))]
    dsimp only
    rw [hfraction, hempty, if_neg Bool.false_ne_true, hread]
    rfl

/-- **What is read as a decimal number is a mantissa and an exponent**, and nothing else is. -/
theorem readDecimal?_iff :
    readDecimal? s = some d ↔ ∃ mantissa exponent c p x y, MantissaSpelled mantissa c p ∧
      ExponentSpelled exponent x y ∧ s = mantissa ++ exponent ∧ d = ⟨c, y - p⟩ := by
  constructor
  · intro h
    unfold readDecimal? at h
    obtain ⟨hs, hwhole, -⟩ := span_spec Char.isDigit s
    generalize s.span Char.isDigit = cut at h hs hwhole
    obtain ⟨whole, rest⟩ := cut
    dsimp only at h hs hwhole
    unfold splitFraction at h
    split at h
    · next rest =>
      obtain ⟨hrest, hfraction, -⟩ := span_spec Char.isDigit rest
      generalize rest.span Char.isDigit = cut at h hrest hfraction
      obtain ⟨fraction, exponent⟩ := cut
      dsimp only at h hrest hfraction
      split at h
      · cases h
      · next hempty =>
        obtain ⟨y, hread, hd⟩ := Option.map_eq_some_iff.1 h
        obtain ⟨x, he⟩ := readExponent?_iff.1 hread
        have hne : whole ++ fraction ≠ [] := isEmpty_and_eq_false.1 (Bool.eq_false_iff.2 hempty)
        have hall := List.forall_mem_append.2 ⟨hwhole, hfraction⟩
        refine ⟨_, exponent, _, _, x, y, .point hne hall, he, ?_, hd.symm⟩
        rw [hs, hrest, List.append_assoc, List.cons_append]
    · dsimp only at h
      split at h
      · cases h
      · next hempty =>
        obtain ⟨y, hread, hd⟩ := Option.map_eq_some_iff.1 h
        obtain ⟨x, he⟩ := readExponent?_iff.1 hread
        have hne : whole ≠ [] := by
          rintro rfl
          exact hempty rfl
        rw [List.append_nil] at hd
        exact ⟨whole, rest, _, 0, x, y, .whole hne hwhole, he, hs, hd.symm⟩
  · rintro ⟨mantissa, exponent, c, p, x, y, hm, he, rfl, rfl⟩
    exact readDecimal?_append hm he

/-- **The digits of an exponent that do not count make no difference** to a mantissa that is not tens of
thousands of characters long: the number is past all doubles or before them, with and without them. -/
theorem magnitude_exact (hm : MantissaSpelled mantissa c p) (he : ExponentSpelled exponent x y)
    (h : x.natAbs < 655360 ∨ mantissa.length < 65000) :
    (⟨c, x - p⟩ : Decimal).magnitude = (⟨c, y - p⟩ : Decimal).magnitude := by
  obtain ⟨hc, hp⟩ := hm.lt_pow
  cases he with
  | none => rfl
  | @mk mark sign digits negative n hmark hsign hne hall hcounts =>
    rcases hcounts.eq_or_le with rfl | ⟨hn, hdigits⟩
    · rfl
    · cases negative with
      | true =>
        change (-(digitsValue digits : ℤ)).natAbs < 655360 ∨ _ at h
        change (⟨c, -(digitsValue digits : ℤ) - p⟩ : Decimal).magnitude =
          (⟨c, -(n : ℤ) - p⟩ : Decimal).magnitude
        rw [Decimal.magnitude_of_small hc (by dsimp only; omega),
          Decimal.magnitude_of_small hc (by dsimp only; omega)]
      | false =>
        change (digitsValue digits : ℤ).natAbs < 655360 ∨ _ at h
        change (⟨c, (digitsValue digits : ℤ) - p⟩ : Decimal).magnitude =
          (⟨c, (n : ℤ) - p⟩ : Decimal).magnitude
        by_cases hzero : c = 0
        · rw [Decimal.magnitude_of_zero hzero, Decimal.magnitude_of_zero hzero]
        · rw [Decimal.magnitude_of_large hzero (by dsimp only; omega),
            Decimal.magnitude_of_large hzero (by dsimp only; omega)]

end Number

end EventSieve
