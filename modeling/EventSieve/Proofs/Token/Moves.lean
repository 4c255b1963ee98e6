import EventSieve.Proofs.Fallible
import EventSieve.Proofs.Token.Unmarked
import EventSieve.Token.Scan

/-!
# What a scan does with one character

`Move s c t` lists the ways in which a scan goes on from `s` by the character `c`; every later fact
about scanning is read off this list.

* `step_eq_ok_iff`, `step_eq_error_iff`: a step that does not fail is a move, and when one fails.
* `run`: a scan continued over a text; `scan_eq_ok_iff` says what tokens it ends with.
-/

namespace EventSieve

namespace Scan

/-- The ways in which a scan goes on from `s` by one character. -/
inductive Move (s : Scan) : Char → Scan → Prop
  /-- Inside quotes every character is kept; a quote ends them. -/
  | quoted {c : Char} : s.quote ≠ none → Move s c (s.keep c (if c = '"' then none else s.quote))
  | quote : s.quote = none → Move s '"' (s.keep '"' (some s.offset))
  | opening : s.quote = none → Move s '(' (s.emit '(' s.pending .opening (s.depth + 1))
  | closing : s.quote = none → s.depth ≠ 0 →
      Move s ')' (s.emit ')' s.pending .closing (s.depth - 1))
  /-- The second character of a connective takes the first one from what is pending. -/
  | connective {k : Connective} {before : List Char} : s.quote = none →
      s.pending = k.char :: before → Move s k.char (s.emit k.char before (.connective k) s.depth)
  | plain {c : Char} : s.quote = none → c ≠ '"' → c ≠ '(' → c ≠ ')' →
      (∀ k : Connective, c = k.char → s.pending.head? ≠ some k.char) → Move s c (s.keep c none)

theorem connective?_char (k : Connective) : connective? k.char = some k := by
  cases k <;> decide

theorem connective?_eq_some {c : Char} {k : Connective} (h : connective? c = some k) :
    c = k.char := by
  unfold connective? at h
  split at h
  · next hc =>
    cases h
    exact hc
  · split at h
    · next hc =>
      cases h
      exact hc
    · cases h

theorem connective_char_ne (k : Connective) : k.char ≠ '"' ∧ k.char ≠ '(' ∧ k.char ≠ ')' := by
  cases k <;> decide

/-- A character that is neither a quote nor a parenthesis ends a connective or is kept. -/
theorem stepPlain_move {s : Scan} {c : Char} (hq : s.quote = none) (h1 : c ≠ '"') (h2 : c ≠ '(')
    (h3 : c ≠ ')') : Move s c (s.stepPlain c) := by
  unfold stepPlain
  split
  · next k last before hk hp =>
    have hc := connective?_eq_some hk
    split
    · next hl =>
      subst hl
      subst hc
      exact .connective hq hp
    · next hl =>
      refine .plain hq h1 h2 h3 fun k' hk' hh => hl ?_
      rw [hp, List.head?_cons, Option.some.injEq] at hh
      rw [hh, hk']
  · next hn =>
    refine .plain hq h1 h2 h3 fun k hk hh => ?_
    obtain ⟨before, hp⟩ := List.head?_eq_some_iff.1 hh
    exact hn k k.char before (by rw [hk, connective?_char]) hp

/-- The character that doubles the last pending one to a connective ends it. -/
theorem stepPlain_connective {s : Scan} {k : Connective} {before : List Char}
    (hp : s.pending = k.char :: before) :
    s.stepPlain k.char = s.emit k.char before (.connective k) s.depth := by
  unfold stepPlain
  rw [connective?_char, hp]
  simp

/-- Any other character is kept. -/
theorem stepPlain_keep {s : Scan} {c : Char}
    (hk : ∀ k : Connective, c = k.char → s.pending.head? ≠ some k.char) :
    s.stepPlain c = s.keep c none := by
  unfold stepPlain
  split
  · next k last before hc hp =>
    have hc := connective?_eq_some hc
    rw [if_neg]
    rintro rfl
    exact hk k hc (by rw [hp, hc]; rfl)
  · rfl

/-- **A character is taken, or it closes a parenthesis while none is open.** -/
theorem move_or_unmatched (s : Scan) (c : Char) :
    (∃ t, Move s c t) ∨ c = ')' ∧ s.quote = none ∧ s.depth = 0 := by
  by_cases hq : s.quote = none
  · by_cases h1 : c = '"'
    · subst h1
      exact .inl ⟨_, .quote hq⟩
    by_cases h2 : c = '('
    · subst h2
      exact .inl ⟨_, .opening hq⟩
    by_cases h3 : c = ')'
    · subst h3
      by_cases hd : s.depth = 0
      · exact .inr ⟨rfl, hq, hd⟩
      · exact .inl ⟨_, .closing hq hd⟩
    · exact .inl ⟨_, stepPlain_move hq h1 h2 h3⟩
  · exact .inl ⟨_, .quoted hq⟩

theorem Move.step_eq {s t : Scan} {c : Char} (h : Move s c t) : s.step c = .ok t := by
  cases h with
  | quoted hq => rw [step, if_pos (Option.isSome_iff_ne_none.2 hq)]
  | quote hq => simp [step, hq]
  | opening hq => simp [step, hq]
  | closing hq hd => simp [step, hq, hd]
  | @connective k before hq hp =>
    obtain ⟨h1, h2, h3⟩ := connective_char_ne k
    simp [step, hq, h1, h2, h3, stepPlain_connective hp]
  | plain hq h1 h2 h3 hk => simp [step, hq, h1, h2, h3, stepPlain_keep hk]

theorem step_unmatched {s : Scan} (hq : s.quote = none) (hd : s.depth = 0) :
    s.step ')' = .error (.unbalanced s.offset) := by
  simp [step, hq, hd]

/-- **A step that does not fail is one of the moves.** -/
theorem step_eq_ok_iff {s t : Scan} {c : Char} : s.step c = .ok t ↔ Move s c t := by
  refine ⟨fun h => ?_, Move.step_eq⟩
  rcases move_or_unmatched s c with ⟨r, hm⟩ | ⟨rfl, hq, hd⟩
  · rw [hm.step_eq] at h
    cases h
    exact hm
  · rw [step_unmatched hq hd] at h
    cases h

/-- A scan fails only at a parenthesis that is closed while none is open. -/
theorem step_eq_error_iff {s : Scan} {c : Char} {x : ExprError} : s.step c = .error x ↔
    c = ')' ∧ s.quote = none ∧ s.depth = 0 ∧ x = .unbalanced s.offset := by
  constructor
  · intro h
    rcases move_or_unmatched s c with ⟨r, hm⟩ | ⟨rfl, hq, hd⟩
    · rw [hm.step_eq] at h
      cases h
    · rw [step_unmatched hq hd] at h
      cases h
      exact ⟨rfl, hq, hd, rfl⟩
  · rintro ⟨rfl, hq, hd, rfl⟩
    exact step_unmatched hq hd

/-- A scan continued over a text. -/
def run (s : Scan) (text : List Char) : Except ExprError Scan := text.foldlM step s

variable {s t : Scan} {u v : List Char} {c : Char}

theorem run_nil (s : Scan) : s.run [] = .ok s := rfl

theorem run_cons_eq_ok : s.run (c :: u) = .ok t ↔ ∃ r, Move s c r ∧ r.run u = .ok t := by
  unfold run
  simp only [foldlM_cons_eq_ok, step_eq_ok_iff]

theorem run_append_eq_ok : s.run (u ++ v) = .ok t ↔ ∃ r, s.run u = .ok r ∧ r.run v = .ok t :=
  foldlM_append_eq_ok

theorem run_concat_eq_ok : s.run (u ++ [c]) = .ok t ↔ ∃ r, s.run u = .ok r ∧ Move r c t := by
  rw [run_append_eq_ok]
  unfold run
  simp only [foldlM_singleton_eq_ok, step_eq_ok_iff]

/-- The tokens of a scan that may end: those found, and what is pending as a clause. -/
theorem tokens_eq_ok_iff {ts : List Token} :
    s.tokens = .ok ts ↔
      s.quote = none ∧ s.depth = 0 ∧ foundWith s.pending s.found = ts.reverse := by
  unfold tokens
  cases s.quote with
  | some offset => simp
  | none =>
    by_cases hd : s.depth = 0
    · simp only [hd, ne_eq, not_true_eq_false, if_false, Except.ok.injEq, true_and]
      exact ⟨fun h => by rw [← h, List.reverse_reverse], fun h => by rw [h, List.reverse_reverse]⟩
    · simp [hd]

end Scan

theorem Token.scan_eq_ok_iff {text : List Char} {ts : List Token} :
    Token.scan text = .ok ts ↔ ∃ s, Scan.start.run text = .ok s ∧ s.tokens = .ok ts := bind_eq_ok

end EventSieve
