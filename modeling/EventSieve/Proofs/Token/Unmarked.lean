import Mathlib.Data.List.Basic
import Mathlib.Data.List.Induction
import EventSieve.Proofs.Text.Trim
import EventSieve.Token.Basic

/-!
# Texts without marks

Parentheses and connectives are **marks**, unless they stand inside quotes. A text without marks is
what a scan keeps in one piece.

* `QuotesClosed`: a text ends outside quotes.
* `Unmarked`: no mark is spelled at a place outside quotes.
* `unmarked_concat`: when one more character leaves a text unmarked.
* `Unmarked.append`: two such texts put together are one, unless they make a connective.
* `unmarked_of_not_special`, `unmarked_quoted`: texts that are unmarked by their characters alone.
-/

namespace EventSieve

/-- Whether a token is a parenthesis or a connective. -/
def Token.IsMark : Token → Prop
  | .clause _ => False
  | .connective _ | .opening | .closing => True

/-- A text that ends outside quotes, and so has quotes in pairs. -/
def QuotesClosed (s : List Char) : Prop := s.count '"' % 2 = 0

/-- A text without marks: outside quotes no parenthesis and no connective is spelled. -/
def Unmarked (w : List Char) : Prop :=
  ∀ u v, w = u ++ v → QuotesClosed u → ∀ m : Token, m.IsMark → ¬ m.spelling <+: v

/-- Whether a character is a quote or occurs in a mark. -/
def special (c : Char) : Bool := c == '"' || c == '(' || c == ')' || c == '&' || c == '|'

variable {u v w : List Char} {c : Char}

theorem Connective.special_char (k : Connective) : special k.char = true := by
  cases k <;> decide

theorem Connective.char_ne_quote (k : Connective) : k.char ≠ '"' := by
  cases k <;> decide

/-- Every mark starts with a special character that is not a quote. -/
theorem Token.IsMark.spelling_eq_cons {m : Token} (h : m.IsMark) :
    ∃ c s, m.spelling = c :: s ∧ special c = true ∧ c ≠ '"' := by
  cases m with
  | clause text => exact absurd h id
  | connective k => exact ⟨k.char, [k.char], rfl, k.special_char, k.char_ne_quote⟩
  | opening => exact ⟨'(', [], rfl, by decide, by decide⟩
  | closing => exact ⟨')', [], rfl, by decide, by decide⟩

theorem quotesClosed_nil : QuotesClosed [] := rfl

/-- A quote opens or closes; any other character does neither. -/
theorem quotesClosed_concat : QuotesClosed (w ++ [c]) ↔ (QuotesClosed w ↔ c ≠ '"') := by
  unfold QuotesClosed
  rw [List.count_append]
  by_cases hc : c = '"'
  · subst hc
    simp only [List.count_cons_self, List.count_nil, ne_eq, not_true, iff_false]
    omega
  · have h0 : [c].count '"' = 0 := List.count_eq_zero.2 fun h => hc (List.mem_singleton.1 h).symm
    simp [h0, hc]

theorem quotesClosed_append (hu : QuotesClosed u) : QuotesClosed (u ++ v) ↔ QuotesClosed v := by
  unfold QuotesClosed at *
  rw [List.count_append]
  omega

theorem QuotesClosed.of_append_left (h : QuotesClosed (u ++ v)) (hv : QuotesClosed v) :
    QuotesClosed u := by
  unfold QuotesClosed at *
  rw [List.count_append] at h
  omega

theorem quotesClosed_of_not_mem (h : '"' ∉ w) : QuotesClosed w := by
  unfold QuotesClosed
  rw [List.count_eq_zero.2 h]

theorem not_mem_of_not_special (h : ∀ c ∈ w, special c = false) : '"' ∉ w := fun hq =>
  Bool.false_ne_true ((h _ hq).symm.trans (by decide))

theorem quotesClosed_of_not_special (h : ∀ c ∈ w, special c = false) : QuotesClosed w :=
  quotesClosed_of_not_mem (not_mem_of_not_special h)

theorem unmarked_nil : Unmarked [] := by
  intro u v h _ m hm hp
  obtain ⟨c, s, hs, -⟩ := hm.spelling_eq_cons
  rw [(List.append_eq_nil_iff.1 h.symm).2, hs] at hp
  exact absurd hp.length_le (by simp)

theorem Unmarked.of_append_left (h : Unmarked (u ++ v)) : Unmarked u := by
  rintro u₁ u₂ rfl hq m hm hp
  exact h u₁ (u₂ ++ v) (List.append_assoc u₁ u₂ v) hq m hm (hp.trans (List.prefix_append u₂ v))

theorem Unmarked.of_append_right (h : Unmarked (u ++ v)) (hu : QuotesClosed u) : Unmarked v := by
  rintro v₁ v₂ rfl hq m hm hp
  exact h (u ++ v₁) v₂ (List.append_assoc u v₁ v₂).symm ((quotesClosed_append hu).2 hq) m hm hp

/-- A mark ends with a parenthesis, or with the second character of a connective. -/
theorem Token.IsMark.eq_of_spelling_eq {m : Token} (hm : m.IsMark) (h : m.spelling = w ++ [c]) :
    w = [] ∧ (c = '(' ∨ c = ')') ∨ ∃ k : Connective, w = [k.char] ∧ c = k.char := by
  cases m with
  | clause text => exact hm.elim
  | opening =>
    have hsplit : [] ++ ['('] = w ++ [c] := h
    obtain ⟨rfl, hc⟩ := List.append_inj' hsplit rfl
    exact .inl ⟨rfl, .inl (List.singleton_inj.1 hc).symm⟩
  | closing =>
    have hsplit : [] ++ [')'] = w ++ [c] := h
    obtain ⟨rfl, hc⟩ := List.append_inj' hsplit rfl
    exact .inl ⟨rfl, .inr (List.singleton_inj.1 hc).symm⟩
  | connective k =>
    have hsplit : [k.char] ++ [k.char] = w ++ [c] := h
    obtain ⟨rfl, hc⟩ := List.append_inj' hsplit rfl
    exact .inr ⟨k, rfl, (List.singleton_inj.1 hc).symm⟩

/-- **One more character** leaves a text unmarked unless it stands outside quotes and is a
parenthesis or doubles the last character to a connective. -/
theorem unmarked_concat :
    Unmarked (w ++ [c]) ↔ Unmarked w ∧ (QuotesClosed w → c ≠ '(' ∧ c ≠ ')' ∧
      ∀ k : Connective, c = k.char → w.getLast? ≠ some k.char) := by
  constructor
  · refine fun h => ⟨h.of_append_left, fun hq => ⟨?_, ?_, ?_⟩⟩
    · rintro rfl
      exact h w ['('] rfl hq .opening trivial (List.prefix_refl _)
    · rintro rfl
      exact h w [')'] rfl hq .closing trivial (List.prefix_refl _)
    · rintro k rfl hl
      obtain ⟨u, rfl⟩ := List.getLast?_eq_some_iff.1 hl
      have hu : QuotesClosed u := (quotesClosed_concat.1 hq).2 k.char_ne_quote
      exact h u [k.char, k.char] (by simp) hu (.connective k) trivial (List.prefix_refl _)
  · rintro ⟨hw, hc⟩ u v h hq m hm hp
    rcases List.eq_nil_or_concat' v with rfl | ⟨v, x, rfl⟩
    · obtain ⟨y, s, hs, -⟩ := hm.spelling_eq_cons
      rw [hs] at hp
      exact absurd hp.length_le (by simp)
    · rw [← List.append_assoc] at h
      obtain ⟨rfl, h⟩ := List.append_inj' h rfl
      obtain rfl : c = x := by simpa using h
      -- the mark lies inside `w`, or it ends with the new character
      rcases List.prefix_concat_iff.1 hp with hp | hp
      · rcases hm.eq_of_spelling_eq hp with ⟨rfl, hend⟩ | ⟨k, rfl, rfl⟩
        · rw [List.append_nil] at hc
          obtain ⟨hopening, hclosing, -⟩ := hc hq
          exact hend.elim hopening hclosing
        · have hq' : QuotesClosed (u ++ [k.char]) :=
            quotesClosed_concat.2 ⟨fun _ => k.char_ne_quote, fun _ => hq⟩
          exact (hc hq').2.2 k rfl (by simp)
      · exact hw u v rfl hq m hm hp

/-- **Two unmarked texts make one**, when the first ends outside quotes and no connective is made
where they meet. -/
theorem Unmarked.append (hu : Unmarked u) (hv : Unmarked v) (hq : QuotesClosed u)
    (hj : ∀ k : Connective, u.getLast? = some k.char → v.head? ≠ some k.char) :
    Unmarked (u ++ v) := by
  induction v using List.reverseRecOn with
  | nil => rwa [List.append_nil]
  | append_singleton v c ih =>
    obtain ⟨hv, hc⟩ := unmarked_concat.1 hv
    rw [← List.append_assoc, unmarked_concat]
    refine ⟨ih hv (fun k hl hh => hj k hl (by rw [List.head?_append, hh]; rfl)), fun h => ?_⟩
    obtain ⟨h1, h2, h3⟩ := hc ((quotesClosed_append hq).1 h)
    refine ⟨h1, h2, ?_⟩
    rintro k rfl hl
    rcases List.eq_nil_or_concat' v with rfl | ⟨v, x, rfl⟩
    · rw [List.append_nil] at hl
      exact hj k hl rfl
    · exact h3 k rfl (by simpa using hl)

theorem unmarked_of_not_special (h : ∀ c ∈ w, special c = false) : Unmarked w := by
  rintro u v rfl _ m hm hp
  obtain ⟨c, s, hs, hc, -⟩ := hm.spelling_eq_cons
  rw [hs] at hp
  have hv : c ∈ v := hp.subset List.mem_cons_self
  rw [h c (List.mem_append_right u hv)] at hc
  exact Bool.false_ne_true hc

/-- Characters that are not special can stand before any unmarked text. -/
theorem Unmarked.append_of_not_special (hv : Unmarked v) (hu : ∀ c ∈ u, special c = false) :
    Unmarked (u ++ v) := by
  refine (unmarked_of_not_special hu).append hv (quotesClosed_of_not_special hu) fun k hl _ => ?_
  have hk := hu k.char (List.mem_of_getLast? hl)
  rw [k.special_char] at hk
  exact Bool.false_ne_true hk.symm

/-- A text without quotes has no marks if it has no parenthesis and no connective at all. -/
theorem unmarked_of_not_infix (h : ∀ m : Token, m.IsMark → ¬ m.spelling <:+: w) : Unmarked w := by
  rintro u v rfl _ m hm hp
  exact h m hm (hp.isInfix.trans (List.suffix_append u v).isInfix)

/-- Between two quotes anything but a quote can stand. -/
theorem unmarked_quoted (h : '"' ∉ w) : Unmarked ('"' :: w ++ ['"']) := by
  intro u v huv hq m hm hp
  obtain ⟨c, s, hs, -, hc⟩ := hm.spelling_eq_cons
  rw [hs] at hp
  obtain ⟨r, rfl⟩ := hp
  cases u with
  | nil => exact hc (List.cons.inj huv).1.symm
  | cons x u =>
    rw [List.cons_append, List.cons_append, List.cons.injEq] at huv
    obtain ⟨rfl, huv⟩ := huv
    -- an opened quote is still open before the last character, which is no mark
    rcases List.append_eq_append_iff.1 huv with ⟨t, rfl, ht⟩ | ⟨t, rfl, -⟩
    · cases t with
      | nil => exact hc (List.cons.inj ht).1.symm
      | cons y t =>
        have := congrArg List.length ht
        simp at this
    · have hu : u.count '"' = 0 := List.count_eq_zero.2 fun hm => h (List.mem_append_left t hm)
      unfold QuotesClosed at hq
      rw [List.count_cons_self, hu] at hq
      exact absurd hq (by decide)

theorem quotesClosed_quoted (h : '"' ∉ w) : QuotesClosed ('"' :: w ++ ['"']) := by
  unfold QuotesClosed
  rw [List.count_append, List.count_cons_self, List.count_eq_zero.2 h]
  rfl

theorem special_of_isBlank (h : Text.isBlank c = true) : special c = false := by
  refine Text.eq_false_of_excludes (fun hc => ?_) h
  simp only [special, Bool.or_eq_true, beq_iff_eq] at hc
  rcases hc with (((rfl | rfl) | rfl) | rfl) | rfl <;> decide

theorem Connective.isBlank_char (k : Connective) : Text.isBlank k.char = false := by
  cases k <;> decide

theorem not_special_of_blank (h : Text.Blank w) : ∀ c ∈ w, special c = false :=
  fun c hc => special_of_isBlank (h c hc)

theorem Unmarked.trim (h : Unmarked w) : Unmarked (Text.trim w) := by
  obtain ⟨a, b, ha, -, hw⟩ := Text.exists_trim w
  rw [hw, List.append_assoc] at h
  exact (h.of_append_right (quotesClosed_of_not_special (not_special_of_blank ha))).of_append_left

theorem quotesClosed_trim : QuotesClosed (Text.trim w) ↔ QuotesClosed w := by
  obtain ⟨a, b, ha, hb, hw⟩ := Text.exists_trim w
  have ha0 := List.count_eq_zero.2 (not_mem_of_not_special (not_special_of_blank ha))
  have hb0 := List.count_eq_zero.2 (not_mem_of_not_special (not_special_of_blank hb))
  have hc : w.count '"' = (Text.trim w).count '"' := by
    rw [congrArg (List.count '"') hw, List.count_append, List.count_append, ha0, hb0,
      Nat.zero_add, Nat.add_zero]
  unfold QuotesClosed
  rw [hc]

end EventSieve
