import Mathlib.Algebra.Ring.Nat
import Mathlib.Data.List.Forall2
import Mathlib.Data.List.Induction
import Mathlib.Tactic.ByContra
import EventSieve.Text.Basic

/-!
# Digits and what they denote

* `digitsValue_append`, `digitsValue_zeros`, `digitsValue_lt`: the number that decimal digits denote.
* `HexDigit`, `HexSpelled`: hexadecimal digits in either letter case, and runs of them.
* `hexDigit?_iff`, `hexValue?_iff`: **what has a value is a hexadecimal digit, or a run of them.**
* `hexSpelled_toDigits`: the hexadecimal digits of a number, each in either letter case, spell it.
-/

namespace EventSieve.Text

variable {s t digits : List Char} {c : Char} {k m n : ℕ}

/-- A character that is no digit differs from those that are. -/
theorem ne_of_isDigit {d : Char} (h : c.isDigit = true) (hd : d.isDigit = false) : c ≠ d := by
  rintro rfl
  rw [h] at hd
  exact Bool.noConfusion hd

/-- Zeros in front of digits do not count. -/
theorem digitsValue_zeros (k : ℕ) (digits : List Char) :
    digitsValue (List.replicate k '0' ++ digits) = digitsValue digits := by
  unfold digitsValue
  rw [Nat.ofDigitChars_append, Nat.ofDigitChars_replicate_zero, Nat.mul_zero]

theorem digitsValue_append (s t : List Char) :
    digitsValue (s ++ t) = digitsValue s * 10 ^ t.length + digitsValue t := by
  unfold digitsValue
  rw [Nat.ofDigitChars_append, Nat.ofDigitChars_eq_ofDigitChars_zero, Nat.mul_comm]

theorem digitsValue_append_zeros (s : List Char) (k : ℕ) :
    digitsValue (s ++ List.replicate k '0') = digitsValue s * 10 ^ k := by
  have hzeros : digitsValue (List.replicate k '0') = 0 := by
    have h := digitsValue_zeros k []
    rwa [List.append_nil] at h
  rw [digitsValue_append, List.length_replicate, hzeros, Nat.add_zero]

theorem isDigit_replicate {c : Char} {k : ℕ} (hc : c ∈ List.replicate k '0') : c.isDigit = true := by
  rw [List.eq_of_mem_replicate hc]
  decide

theorem digitsValue_concat (s : List Char) (c : Char) :
    digitsValue (s ++ [c]) = 10 * digitsValue s + (c.toNat - '0'.toNat) := by
  unfold digitsValue
  rw [Nat.ofDigitChars_append]
  rfl

/-- More digits denote no less. -/
theorem digitsValue_le_append (s t : List Char) : digitsValue s ≤ digitsValue (s ++ t) := by
  rw [digitsValue_append]
  exact Nat.le_add_right_of_le (Nat.le_mul_of_pos_right _ (Nat.pow_pos (by decide)))

/-- Digits denote less than the power of ten of their number. -/
theorem digitsValue_lt (hs : ∀ c ∈ s, c.isDigit = true) : digitsValue s < 10 ^ s.length := by
  induction s using List.reverseRecOn with
  | nil => decide
  | append_singleton s c ih =>
    have hlt := ih fun d hd => hs d (List.mem_append_left _ hd)
    have hdigit := (Char.isDigit_iff_toNat.1 (hs c (List.mem_append_right _ List.mem_cons_self))).2
    have hnine : '9'.toNat = '0'.toNat + 9 := rfl
    rw [digitsValue_concat, List.length_append, List.length_singleton, Nat.pow_succ]
    omega

/-- Digits whose last one is no zero denote no multiple of ten. -/
theorem digitsValue_concat_mod_ne {c : Char} (hc : c.isDigit = true) (hzero : c ≠ '0') :
    digitsValue (s ++ [c]) % 10 ≠ 0 := by
  have hdigit := Char.isDigit_iff_toNat.1 hc
  have hcode : '0'.toNat = 48 := rfl
  have hnine : '9'.toNat = 57 := rfl
  have hne : c.toNat ≠ '0'.toNat := mt Char.toNat_inj.1 hzero
  rw [digitsValue_concat]
  omega

/-- A hexadecimal digit, in either letter case, and its value. -/
def HexDigit (c : Char) (n : ℕ) : Prop := n < 16 ∧ (c = Nat.digitChar n ∨ c = (Nat.digitChar n).toUpper)

instance (c : Char) (n : ℕ) : Decidable (HexDigit c n) := inferInstanceAs (Decidable (_ ∧ _))

/-- What holds of the sixteen digits in both letter cases holds of every hexadecimal digit. -/
theorem HexDigit.of_all {P : Char → ℕ → Prop} (hc : HexDigit c n)
    (h : ∀ n < 16, P (Nat.digitChar n) n ∧ P (Nat.digitChar n).toUpper n) : P c n := by
  obtain ⟨hn, rfl | rfl⟩ := hc
  · exact (h n hn).1
  · exact (h n hn).2

theorem HexDigit.hexDigit?_eq (hc : HexDigit c n) : hexDigit? c = some n :=
  hc.of_all (P := fun c n => hexDigit? c = some n) (by decide)

/-- The characters that have a value are the hexadecimal digits. -/
theorem hexDigit?_iff : hexDigit? c = some n ↔ HexDigit c n := by
  constructor
  · intro h
    have hall : ∀ k < 103, (hexDigit? (Char.ofNat k)).all (fun n => HexDigit (Char.ofNat k) n) := by
      decide
    have hlt : c.toNat < 103 := by
      by_contra hlarge
      have hnot : ∀ e : Char, e.toNat < 103 → ¬ c ≤ e := by
        intro e he hle
        have hle' : c.toNat ≤ e.toNat := hle
        omega
      unfold hexDigit? at h
      rw [if_neg fun hc => hnot '9' (by decide) hc.2, if_neg fun hc => hnot 'f' (by decide) hc.2,
        if_neg fun hc => hnot 'F' (by decide) hc.2] at h
      cases h
    have hc := hall c.toNat hlt
    rw [Char.ofNat_toNat, h, Option.all_some, decide_eq_true_iff] at hc
    exact hc
  · exact HexDigit.hexDigit?_eq

/-- A hexadecimal digit is no blank. -/
theorem isBlank_of_hexDigit (h : HexDigit c n) : isBlank c = false :=
  h.of_all (P := fun c _ => isBlank c = false) (by decide)

/-- Hexadecimal digits, at least one, and the number that they denote. -/
inductive HexSpelled : List Char → ℕ → Prop
  | digit {c : Char} {n : ℕ} : HexDigit c n → HexSpelled [c] n
  | snoc {s : List Char} {c : Char} {m n : ℕ} : HexSpelled s m → HexDigit c n →
      HexSpelled (s ++ [c]) (m * 16 + n)

theorem HexSpelled.not_isBlank (h : HexSpelled digits n) : ∀ c ∈ digits, isBlank c = false := by
  induction h with
  | digit hc => simpa using isBlank_of_hexDigit hc
  | snoc _ hc ih => simpa [or_imp, forall_and] using ⟨ih, isBlank_of_hexDigit hc⟩

/-- Zeros in front of hexadecimal digits do not count. -/
theorem HexSpelled.zeros (h : HexSpelled digits n) (k : ℕ) : HexSpelled (List.replicate k '0' ++ digits) n := by
  have hzero : HexDigit '0' 0 := ⟨by decide, .inl rfl⟩
  have hcons : ∀ {s m}, HexSpelled s m → HexSpelled ('0' :: s) m := by
    intro s m h
    induction h with
    | @digit c n hc => simpa using (HexSpelled.digit hzero).snoc hc
    | snoc _ hc ih => exact ih.snoc hc
  induction k with
  | zero => exact h
  | succ k ih => exact hcons ih

/-- The hexadecimal digits of a natural number spell it, each of them in either letter case. -/
theorem hexSpelled_toDigits
    (h : List.Forall₂ (fun c d => c = d ∨ c = d.toUpper) digits (Nat.toDigits 16 n)) :
    HexSpelled digits n := by
  induction n using Nat.strongRecOn generalizing digits with
  | _ n ih =>
    by_cases hn : n < 16
    · rw [Nat.toDigits_of_lt_base hn] at h
      obtain ⟨c, rest, hc, hrest, rfl⟩ := List.forall₂_cons_right_iff.1 h
      rw [List.forall₂_nil_right_iff.1 hrest]
      exact .digit ⟨hn, hc⟩
    · rw [Nat.toDigits_of_base_le (by omega) (by omega)] at h
      -- the last digit, and those before it
      have hfront := List.forall₂_take_append _ _ _ h
      have hback := List.forall₂_drop_append _ _ _ h
      obtain ⟨c, rest, hc, hrest, hcut⟩ := List.forall₂_cons_right_iff.1 hback
      rw [List.forall₂_nil_right_iff.1 hrest] at hcut
      have hspelled := (ih (n / 16) (by omega) hfront).snoc ⟨Nat.mod_lt n (by omega), hc⟩
      rwa [← hcut, List.take_append_drop, Nat.div_add_mod' n 16] at hspelled

theorem hexValueFrom?_append (high : ℕ) (s t : List Char) :
    hexValueFrom? high (s ++ t) = (hexValueFrom? high s).bind fun m => hexValueFrom? m t := by
  induction s generalizing high with
  | nil => rfl
  | cons c s ih =>
    rw [List.cons_append, hexValueFrom?, hexValueFrom?]
    cases hexDigit? c with
    | none => rfl
    | some n => exact ih (16 * high + n)

/-- One more digit after a run of them. -/
theorem hexValueFrom?_concat (high : ℕ) (s : List Char) (c : Char) :
    hexValueFrom? high (s ++ [c]) =
      (hexValueFrom? high s).bind fun m => (hexDigit? c).map fun n => m * 16 + n := by
  rw [hexValueFrom?_append]
  refine congrArg _ (funext fun m => ?_)
  rw [hexValueFrom?, Nat.mul_comm]
  cases hexDigit? c with
  | none => rfl
  | some n => rfl

theorem HexSpelled.ne_nil (h : HexSpelled s m) : s ≠ [] := by
  cases h with
  | digit => exact List.cons_ne_nil _ _
  | snoc => exact List.append_ne_nil_of_right_ne_nil _ (List.cons_ne_nil _ _)

theorem HexSpelled.hexValueFrom?_eq (h : HexSpelled s m) : hexValueFrom? 0 s = some m := by
  induction h with
  | @digit c n hdigit =>
    rw [hexValueFrom?, hexDigit?_iff.2 hdigit]
    exact congrArg some (Nat.zero_add n)
  | @snoc s c m n _ hdigit ih =>
    rw [hexValueFrom?_concat, ih, hexDigit?_iff.2 hdigit]
    rfl

theorem hexSpelled_of_hexValueFrom? (hne : s ≠ []) (h : hexValueFrom? 0 s = some m) : HexSpelled s m := by
  induction s using List.reverseRecOn generalizing m with
  | nil => exact absurd rfl hne
  | append_singleton s c ih =>
    rw [hexValueFrom?_concat] at h
    obtain ⟨high, hs, hc⟩ := Option.bind_eq_some_iff.1 h
    obtain ⟨n, hn, rfl⟩ := Option.map_eq_some_iff.1 hc
    have hdigit := hexDigit?_iff.1 hn
    by_cases hnil : s = []
    · -- the first digit
      rw [hnil] at hs ⊢
      cases hs
      rw [Nat.zero_mul, Nat.zero_add]
      exact .digit hdigit
    · exact .snoc (ih hnil hs) hdigit

/-- **What has a value is a run of hexadecimal digits**, and nothing else has one. -/
theorem hexValue?_iff : hexValue? s = some m ↔ HexSpelled s m := by
  unfold hexValue?
  constructor
  · intro h
    obtain ⟨hempty, hvalue⟩ := Option.ite_none_left_eq_some.1 h
    exact hexSpelled_of_hexValueFrom? (mt List.isEmpty_iff.2 hempty) hvalue
  · intro h
    rw [if_neg (mt List.isEmpty_iff.1 h.ne_nil)]
    exact h.hexValueFrom?_eq

end EventSieve.Text
