import EventSieve.Proofs.Token.Clauses

/-!
# Scanning texts put together

A text that can be cut into tokens is cut in the same way inside a longer one, where more
parentheses are open, tokens and blanks come before it, and more text comes after it.

* `Inside`: how a scan of the text alone is seen in the longer one; `Inside.move` keeps it.
* `run_of_scan`: the tokens of a text, found inside a longer one.
* `scan_parenthesized`, `scan_joined`: **the tokens of a text in parentheses, and of two texts joined
  by a connective.**
-/

namespace EventSieve

namespace Scan

variable {s s' t : Scan} {c : Char} {depth : Nat} {base : List Token}

/-- `s'` is `s` inside a longer text: `depth` more parentheses are open, the tokens `base` were found
before, and blanks may precede what is pending. -/
structure Inside (depth : Nat) (base : List Token) (s s' : Scan) : Prop where
  depth_eq : s'.depth = s.depth + depth
  quote_iff : s'.quote = none ↔ s.quote = none
  pending_eq : ∃ b, Text.Blank b ∧ s'.pending = s.pending ++ b
  found_eq : s'.found = s.found ++ base

/-- What is found with the pending clause does not depend on the blanks before it. -/
theorem Inside.foundWith_eq (h : Inside depth base s s') :
    foundWith s'.pending s'.found = foundWith s.pending s.found ++ base := by
  obtain ⟨b, hb, hp⟩ := h.pending_eq
  rw [hp, h.found_eq, foundWith_append_blank hb, foundWith_append]

theorem Inside.keep (h : Inside depth base s s') {q q' : Option Nat} (hq : q' = none ↔ q = none) :
    Inside depth base (s.keep c q) (s'.keep c q') := by
  obtain ⟨b, hb, hp⟩ := h.pending_eq
  exact ⟨h.depth_eq, hq, ⟨b, hb, by simp [Scan.keep, hp]⟩, h.found_eq⟩

theorem Inside.emit (h : Inside depth base s s') {p p' : List Char} {m : Token} {d d' : Nat}
    (hd : d' = d + depth) (hp : foundWith p' s'.found = foundWith p s.found ++ base) :
    Inside depth base (s.emit c p m d) (s'.emit c p' m d') :=
  ⟨hd, h.quote_iff, ⟨[], Text.blank_nil, rfl⟩, by simp [Scan.emit, hp]⟩

/-- **A move of a text's own scan is also one inside a longer text.** -/
theorem Inside.move (h : Inside depth base s s') (hm : Move s c t) :
    ∃ t', Move s' c t' ∧ Inside depth base t t' := by
  have hd := h.depth_eq
  obtain ⟨b, hb, hp⟩ := h.pending_eq
  cases hm with
  | quoted hq =>
    have hq' : s'.quote ≠ none := mt h.quote_iff.1 hq
    refine ⟨_, .quoted hq', h.keep ?_⟩
    split
    · rfl
    · exact h.quote_iff
  | quote hq => exact ⟨_, .quote (h.quote_iff.2 hq), h.keep (by simp)⟩
  | opening hq => exact ⟨_, .opening (h.quote_iff.2 hq), h.emit (by omega) h.foundWith_eq⟩
  | closing hq hd0 =>
    exact ⟨_, .closing (h.quote_iff.2 hq) (by omega), h.emit (by omega) h.foundWith_eq⟩
  | @connective k before hq hk =>
    rw [hk, List.cons_append] at hp
    refine ⟨_, .connective (h.quote_iff.2 hq) hp, h.emit hd ?_⟩
    rw [h.found_eq, foundWith_append_blank hb, foundWith_append]
  | plain hq h1 h2 h3 hk =>
    refine ⟨_, .plain (h.quote_iff.2 hq) h1 h2 h3 fun k hc hh => ?_, h.keep Iff.rfl⟩
    -- a blank before what is pending is no half of a connective
    rw [hp] at hh
    cases hs : s.pending with
    | nil =>
      rw [hs, List.nil_append] at hh
      exact hb.head?_ne k.isBlank_char hh
    | cons x p =>
      rw [hs, List.cons_append, List.head?_cons] at hh
      exact hk k hc (by rw [hs, List.head?_cons, hh])

theorem Inside.run {text : List Char} (h : Inside depth base s s') (hr : s.run text = .ok t) :
    ∃ t', s'.run text = .ok t' ∧ Inside depth base t t' := by
  induction text generalizing s s' with
  | nil =>
    cases hr
    exact ⟨s', rfl, h⟩
  | cons c text ih =>
    obtain ⟨r, hm, hr⟩ := run_cons_eq_ok.1 hr
    obtain ⟨r', hm', hi⟩ := h.move hm
    obtain ⟨t', ht', hi'⟩ := ih hi hr
    exact ⟨t', run_cons_eq_ok.2 ⟨r', hm', ht'⟩, hi'⟩

/-- A scan between two tokens: outside quotes, with nothing but blanks pending. -/
structure Between (s : Scan) : Prop where
  quote_eq : s.quote = none
  pending_blank : Text.Blank s.pending

/-- **The tokens of a text are found wherever it stands between two tokens.** -/
theorem run_of_scan {text : List Char} {ts : List Token} (h : Token.scan text = .ok ts)
    (hs : Between s) :
    ∃ t, s.run text = .ok t ∧ t.quote = none ∧ t.depth = s.depth ∧
      foundWith t.pending t.found = ts.reverse ++ s.found := by
  obtain ⟨r, hr, ht⟩ := Token.scan_eq_ok_iff.1 h
  obtain ⟨hq, hd, hf⟩ := tokens_eq_ok_iff.1 ht
  have hi : Inside s.depth s.found start s :=
    ⟨(Nat.zero_add _).symm, by simp [start, hs.quote_eq], ⟨s.pending, hs.pending_blank, rfl⟩, rfl⟩
  obtain ⟨t, hrt, hit⟩ := hi.run hr
  refine ⟨t, hrt, hit.quote_iff.2 hq, ?_, ?_⟩
  · rw [hit.depth_eq, hd, Nat.zero_add]
  · rw [hit.foundWith_eq, hf]

theorem between_start : Between start := ⟨rfl, Text.blank_nil⟩

end Scan

open Scan

variable {text text₁ text₂ : List Char} {ts ts₁ ts₂ : List Token}

/-- **A text in parentheses** has its own tokens between those of the parentheses. -/
theorem scan_parenthesized (h : Token.scan text = .ok ts) :
    Token.scan ('(' :: text ++ [')']) = .ok (.opening :: ts ++ [.closing]) := by
  set s₀ := start.emit '(' start.pending .opening 1
  have hopen : Move start '(' s₀ := .opening rfl
  obtain ⟨t, hrun, hq, hd, hf⟩ := run_of_scan (s := s₀) h ⟨rfl, Text.blank_nil⟩
  set t₀ := t.emit ')' t.pending .closing (t.depth - 1)
  have hclose : Move t ')' t₀ := .closing hq (by rw [hd]; decide)
  have hf₀ : t₀.found = .closing :: (ts.reverse ++ [.opening]) := by
    rw [show t₀.found = .closing :: foundWith t.pending t.found from rfl, hf]
    rfl
  refine Token.scan_eq_ok_iff.2 ⟨t₀, ?_, tokens_eq_ok_iff.2 ⟨hq, ?_, ?_⟩⟩
  · exact run_concat_eq_ok.2 ⟨t, run_cons_eq_ok.2 ⟨s₀, hopen, hrun⟩, hclose⟩
  · rw [show t₀.depth = t.depth - 1 from rfl, hd]
    rfl
  · rw [hf₀, show t₀.pending = [] from rfl, foundWith_of_blank Text.blank_nil]
    simp

/-- **Two texts joined by a connective** have its token between their own. -/
theorem scan_joined (k : Connective) (h₁ : Token.scan text₁ = .ok ts₁)
    (h₂ : Token.scan text₂ = .ok ts₂) :
    Token.scan (text₁ ++ ' ' :: k.char :: k.char :: ' ' :: text₂) =
      .ok (ts₁ ++ .connective k :: ts₂) := by
  obtain ⟨t, hrun₁, hq, hd, hf⟩ := run_of_scan h₁ between_start
  -- the connective with the blanks around it
  set t₁ := t.keep ' ' none
  set t₂ := t₁.keep k.char none
  set t₃ := t₂.emit k.char (' ' :: t.pending) (.connective k) t.depth
  set t₄ := t₃.keep ' ' none
  have hm₁ : Move t ' ' t₁ := .plain hq (by decide) (by decide) (by decide) fun k hk =>
    absurd hk (by cases k <;> decide)
  have hm₂ : Move t₁ k.char t₂ := by
    obtain ⟨h1, h2, h3⟩ := connective_char_ne k
    refine .plain rfl h1 h2 h3 fun k' _ hh => ?_
    rw [show t₁.pending = ' ' :: t.pending from rfl, List.head?_cons, Option.some.injEq] at hh
    exact absurd hh (by cases k' <;> decide)
  have hm₃ : Move t₂ k.char t₃ := .connective rfl rfl
  have hm₄ : Move t₃ ' ' t₄ := .plain rfl (by decide) (by decide) (by decide) fun k hk =>
    absurd hk (by cases k <;> decide)
  have hf₃ : t₄.found = .connective k :: (ts₁.reverse ++ start.found) := by
    rw [← hf, ← foundWith_cons_blank (c := ' ') (by decide)]
    rfl
  obtain ⟨r, hrun₂, hqr, hdr, hfr⟩ := run_of_scan (s := t₄) h₂ ⟨rfl, Text.blank_space⟩
  refine Token.scan_eq_ok_iff.2 ⟨r, ?_, tokens_eq_ok_iff.2 ⟨hqr, ?_, ?_⟩⟩
  · refine run_append_eq_ok.2 ⟨t, hrun₁, ?_⟩
    exact run_cons_eq_ok.2 ⟨t₁, hm₁, run_cons_eq_ok.2 ⟨t₂, hm₂, run_cons_eq_ok.2 ⟨t₃, hm₃,
      run_cons_eq_ok.2 ⟨t₄, hm₄, hrun₂⟩⟩⟩⟩
  · rw [hdr]
    exact hd
  · rw [hfr, hf₃]
    simp [start]

end EventSieve
