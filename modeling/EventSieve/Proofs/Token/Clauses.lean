import EventSieve.Proofs.Token.Moves

/-!
# The clauses that a scan cuts out

* `Tidy`: what is pending has no marks, is open exactly when a quote is, and the clauses found so
  far have no marks and their quotes in pairs. Every move keeps this (`Tidy.move`).
* `unmarked_of_scan`: **the clauses of a text have no marks and their quotes in pairs.**
* `scan_of_unmarked`: the converse: such a text is one clause, or none when it is blank.
-/

namespace EventSieve

namespace Scan

variable {s t : Scan} {c : Char} {p w : List Char} {f ts : List Token}

theorem foundWith_def (p : List Char) (f : List Token) :
    foundWith p f =
      if (Text.trim p.reverse).isEmpty then f else .clause (Text.trim p.reverse) :: f := rfl

/-- What is pending becomes a clause before the tokens found, unless it is blank. -/
theorem foundWith_append (p : List Char) (f g : List Token) :
    foundWith p (f ++ g) = foundWith p f ++ g := by
  rw [foundWith_def, foundWith_def]
  split
  · rfl
  · rfl

/-- What is pending makes one clause or none. -/
theorem reverse_foundWith_nil (p : List Char) : (foundWith p []).reverse = foundWith p [] := by
  rw [foundWith_def]
  split
  · rfl
  · rfl

theorem foundWith_of_blank (h : Text.Blank p) : foundWith p f = f := by
  rw [foundWith_def, Text.trim_of_blank (Text.blank_reverse.2 h)]
  rfl

/-- Blanks before or after what is pending do not count. -/
theorem foundWith_append_blank {b : List Char} (hb : Text.Blank b) :
    foundWith (p ++ b) f = foundWith p f := by
  rw [foundWith_def, List.reverse_append, Text.trim_append_left (Text.blank_reverse.2 hb),
    foundWith_def]

theorem foundWith_blank_append {b : List Char} (hb : Text.Blank b) :
    foundWith (b ++ p) f = foundWith p f := by
  rw [foundWith_def, List.reverse_append, Text.trim_append_right p.reverse (Text.blank_reverse.2 hb),
    foundWith_def]

theorem foundWith_cons_blank (hc : Text.isBlank c = true) :
    foundWith (c :: p) f = foundWith p f := by
  have hb : Text.Blank [c] := fun x hx => by rwa [List.mem_singleton.1 hx]
  exact foundWith_blank_append hb

theorem mem_foundWith (h : .clause w ∈ foundWith p f) :
    w = Text.trim p.reverse ∨ .clause w ∈ f := by
  rw [foundWith_def] at h
  split at h
  · exact .inr h
  · rcases List.mem_cons.1 h with h | h
    · exact .inl (Token.clause.inj h)
    · exact .inr h

/-- Nothing that a scan keeps has marks: neither what is pending nor the clauses found. -/
structure Tidy (s : Scan) : Prop where
  quote_iff : s.quote = none ↔ QuotesClosed s.pending.reverse
  unmarked : Unmarked s.pending.reverse
  found : ∀ w, .clause w ∈ s.found → Unmarked w ∧ QuotesClosed w

theorem tidy_start : Tidy start :=
  ⟨⟨fun _ => quotesClosed_nil, fun _ => rfl⟩, unmarked_nil, fun _ h => absurd h List.not_mem_nil⟩

/-- A character that is kept leaves a scan tidy, if it completes no mark. -/
theorem Tidy.keep (h : Tidy s) {quote : Option Nat}
    (hq : quote = none ↔ (s.quote = none ↔ c ≠ '"'))
    (hm : s.quote = none → c ≠ '(' ∧ c ≠ ')' ∧
      ∀ k : Connective, c = k.char → s.pending.head? ≠ some k.char) :
    Tidy (s.keep c quote) := by
  refine ⟨?_, ?_, h.found⟩
  · simp only [Scan.keep, List.reverse_cons]
    rw [quotesClosed_concat, ← h.quote_iff, hq]
  · simp only [Scan.keep, List.reverse_cons]
    refine unmarked_concat.2 ⟨h.unmarked, fun hc => ?_⟩
    simpa only [List.getLast?_reverse] using hm (h.quote_iff.2 hc)

/-- A mark leaves a scan tidy, if what it ends is in order. -/
theorem Tidy.emit (h : Tidy s) {before : List Char} {m : Token} {depth : Nat} (hm : m.IsMark)
    (hs : s.quote = none) (hu : Unmarked before.reverse) (hq : QuotesClosed before.reverse) :
    Tidy (s.emit c before m depth) := by
  refine ⟨⟨fun _ => quotesClosed_nil, fun _ => hs⟩, unmarked_nil, fun w hw => ?_⟩
  rcases List.mem_cons.1 hw with rfl | hw
  · exact absurd hm id
  · rcases mem_foundWith hw with rfl | hw
    · exact ⟨hu.trim, quotesClosed_trim.2 hq⟩
    · exact h.found w hw

/-- **Every move keeps a scan tidy.** -/
theorem Tidy.move (h : Tidy s) (hm : Move s c t) : Tidy t := by
  cases hm with
  | quoted hq =>
    refine h.keep ?_ fun hn => absurd hn hq
    by_cases hc : c = '"' <;> simp [hc, hq]
  | quote hq =>
    exact h.keep (by simp [hq]) fun _ =>
      ⟨by decide, by decide, fun k hk => absurd hk.symm k.char_ne_quote⟩
  | opening hq => exact h.emit trivial hq h.unmarked (h.quote_iff.1 hq)
  | closing hq hd => exact h.emit trivial hq h.unmarked (h.quote_iff.1 hq)
  | @connective k before hq hp =>
    have hu := h.unmarked
    have hc := h.quote_iff.1 hq
    rw [hp, List.reverse_cons] at hu hc
    exact h.emit trivial hq hu.of_append_left ((quotesClosed_concat.1 hc).2 k.char_ne_quote)
  | plain hq h1 h2 h3 hk => exact h.keep (by simp [hq, h1]) fun _ => ⟨h2, h3, hk⟩

theorem tidy_run (h : start.run w = .ok s) : Tidy s :=
  foldlM_invariant (P := fun _ => Tidy) tidy_start
    (fun _ _ _ _ h hs => h.move (step_eq_ok_iff.1 hs)) h

/-- **A text without marks is kept as it is**, unless its first character completes a connective. -/
theorem run_of_unmarked (hs : s.quote = none) (h : Unmarked w)
    (hj : ∀ k : Connective, s.pending.head? = some k.char → w.head? ≠ some k.char) :
    ∃ t, s.run w = .ok t ∧ (t.quote = none ↔ QuotesClosed w) ∧
      t.pending = w.reverse ++ s.pending ∧ t.found = s.found ∧ t.depth = s.depth := by
  induction w using List.reverseRecOn with
  | nil => exact ⟨s, rfl, iff_of_true hs quotesClosed_nil, rfl, rfl, rfl⟩
  | append_singleton w c ih =>
    obtain ⟨hw, hc⟩ := unmarked_concat.1 h
    obtain ⟨t, ht, hq, hp, hf, hd⟩ := ih hw fun k hk hh => hj k hk (by rw [List.head?_append, hh]; rfl)
    have hkeep : ∃ quote, Move t c (t.keep c quote) ∧ (quote = none ↔ (t.quote = none ↔ c ≠ '"')) := by
      by_cases hn : t.quote = none
      · by_cases hc' : c = '"'
        · subst hc'
          exact ⟨_, .quote hn, by simp [hn]⟩
        · obtain ⟨h2, h3, hk⟩ := hc (hq.1 hn)
          refine ⟨_, .plain hn hc' h2 h3 ?_, by simp [hn, hc']⟩
          intro k hck hh
          rw [hp] at hh
          -- the character before is the last one of the text, or the last one before it
          rcases List.eq_nil_or_concat' w with rfl | ⟨v, x, rfl⟩
          · exact hj k hh (congrArg some hck)
          · exact hk k hck (by simpa using hh)
      · refine ⟨_, .quoted hn, ?_⟩
        by_cases hc' : c = '"'
        · simp [hn, hc']
        · simp [hn, hc']
    obtain ⟨quote, hm, hquote⟩ := hkeep
    refine ⟨t.keep c quote, run_concat_eq_ok.2 ⟨t, ht, hm⟩, ?_, ?_, hf, hd⟩
    · rw [quotesClosed_concat, ← hq]
      exact hquote
    · simp [Scan.keep, hp]

end Scan

open Scan

variable {text w : List Char} {ts : List Token}

/-- **The clauses of a text have no marks**, and their quotes come in pairs. -/
theorem unmarked_of_scan (h : Token.scan text = .ok ts) (hw : .clause w ∈ ts) :
    Unmarked w ∧ QuotesClosed w := by
  obtain ⟨s, hs, ht⟩ := Token.scan_eq_ok_iff.1 h
  obtain ⟨hq, -, hf⟩ := tokens_eq_ok_iff.1 ht
  have tidy := tidy_run hs
  rw [← List.mem_reverse, ← hf] at hw
  rcases mem_foundWith hw with rfl | hw
  · exact ⟨tidy.unmarked.trim, quotesClosed_trim.2 (tidy.quote_iff.1 hq)⟩
  · exact tidy.found w hw

/-- **A text without marks whose quotes come in pairs is one clause**, or none when it is blank. -/
theorem scan_of_unmarked (h : Unmarked w) (hq : QuotesClosed w) :
    Token.scan w = .ok (foundWith w.reverse []) := by
  obtain ⟨s, hs, hn, hp, hf, hd⟩ := run_of_unmarked (s := start) rfl h fun _ hk => nomatch hk
  refine Token.scan_eq_ok_iff.2 ⟨s, hs, tokens_eq_ok_iff.2 ⟨hn.2 hq, hd, ?_⟩⟩
  rw [hp, hf, reverse_foundWith_nil]
  exact congrArg (foundWith · []) (List.append_nil _)

end EventSieve
