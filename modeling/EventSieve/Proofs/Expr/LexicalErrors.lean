import Mathlib.Order.Bounds.Basic
import EventSieve.Proofs.Expr.Refusals
import EventSieve.Proofs.Token.Balance
import EventSieve.Proofs.Token.Tally

/-!
# Errors of parentheses and quotes

* `Scanned`: what a text's own parentheses and quotes say about cutting it into tokens; `scanned_scan`:
  **a scan answers so.**
* `Expr.read_lexical_error`: **where and why a text is refused before its clauses are looked at.**
-/

namespace EventSieve

open Scan Text

variable {s t : Scan} {c : Char} {u text : List Char} {i : Nat} {x : ExprError}

/-- What the parentheses and quotes of a text say about cutting it into tokens: the first parenthesis
without a partner is the error; else a last quote that is open; else a parenthesis that is open; and
else there are tokens, and they are balanced. -/
inductive Scanned (text : List Char) : Except ExprError (List Token) → Prop
  | unmatched {i : Nat} : IsLeast {j | UnmatchedAt text j} i → Scanned text (.error (.unbalanced i))
  | openQuote {p : Nat} : (¬∃ j, UnmatchedAt text j) → ¬QuotesClosed text →
      IsGreatest {j | QuoteAt text j} p → Scanned text (.error (.openQuote p))
  | opened : (¬∃ j, UnmatchedAt text j) → QuotesClosed text →
      countOutside ')' text < countOutside '(' text → Scanned text (.error (.unbalanced (byteLength text)))
  | tokens {ts : List Token} : (¬∃ j, UnmatchedAt text j) → QuotesClosed text →
      ¬countOutside ')' text < countOutside '(' text → Balanced ts → Scanned text (.ok ts)

/-- A parenthesis without a partner is the first one, if there is none in the part before it. -/
theorem isLeast_unmatchedAt (hu : u ++ [')'] <+: text) (hq : QuotesClosed u)
    (hcount : countOutside '(' u = countOutside ')' u) (hmatched : ∀ j, ¬UnmatchedAt u j) :
    IsLeast {j | UnmatchedAt text j} (byteLength u) := by
  refine ⟨⟨u, hu, rfl, hq, hcount⟩, ?_⟩
  rintro j ⟨w, hw, rfl, hwq, hwcount⟩
  have huw := (List.prefix_append u [')']).trans hu
  have hwu := (List.prefix_append w [')']).trans hw
  -- of two parts of one text, the shorter one is a part of the longer
  rcases Nat.lt_or_ge w.length u.length with hlt | hge
  · have hlen : (w ++ [')']).length ≤ u.length := by
      rw [List.length_append, List.length_singleton]
      exact hlt
    have hpart := List.prefix_of_prefix_length_le hw huw hlen
    exact absurd ⟨w, hpart, rfl, hwq, hwcount⟩ (hmatched (byteLength w))
  · exact byteLength_le (List.prefix_of_prefix_length_le huw hwu hge)

/-- A scan that gets to the end of a text answers there as its tally says. -/
theorem Scan.Tallied.scanned (tally : Tallied text s) (hscan : Token.scan text = s.tokens) :
    Scanned text s.tokens := by
  have hmatched : ¬∃ j, UnmatchedAt text j := fun ⟨j, hj⟩ => tally.matched j hj
  have hcount := tally.depth_eq
  cases hq : s.quote with
  | some p =>
    have hodd : ¬QuotesClosed text := fun h => by
      rw [tally.quote_iff.2 h] at hq
      cases hq
    rw [tokens, hq]
    exact .openQuote hmatched hodd (tally.quote_last p hq)
  | none =>
    have hclosed := tally.quote_iff.1 hq
    by_cases hd : s.depth = 0
    · obtain ⟨ts, hts⟩ : ∃ ts, s.tokens = .ok ts :=
        ⟨_, tokens_eq_ok_iff.2 ⟨hq, hd, (List.reverse_reverse _).symm⟩⟩
      rw [hts] at hscan ⊢
      exact .tokens hmatched hclosed (by omega) (balanced_of_scan hscan)
    · have htokens : s.tokens = .error (.unbalanced (byteLength text)) := by
        simp [tokens, hq, hd, tally.offset_eq]
      rw [htokens]
      exact .opened hmatched hclosed (by omega)

/-- **A scan answers as the parentheses and quotes of the text say.** -/
theorem scanned_scan (text : List Char) : Scanned text (Token.scan text) := by
  cases hrun : start.run text with
  | error x =>
    -- the scan has passed the part before the parenthesis, with none open there
    obtain ⟨u, c, v, s, rfl, hs, hx⟩ := foldlM_eq_error_iff.1 hrun
    obtain ⟨rfl, hq, hd, rfl⟩ := step_eq_error_iff.1 hx
    have tally := tallied_run hs
    have hscan : Token.scan (u ++ ')' :: v) = .error (.unbalanced s.offset) :=
      bind_eq_error.2 (.inl hrun)
    have hcount := tally.depth_eq
    rw [hd, Nat.add_zero] at hcount
    rw [hscan, tally.offset_eq]
    exact .unmatched (isLeast_unmatchedAt ⟨v, by simp⟩ (tally.quote_iff.1 hq) hcount tally.matched)
  | ok s =>
    have hscan : Token.scan text = s.tokens := by
      have hbind : Token.scan text = start.run text >>= Scan.tokens := rfl
      rw [hbind, hrun]
      rfl
    rw [hscan]
    exact (tallied_run hrun).scanned hscan

theorem scan_eq_unbalanced_iff : Token.scan text = .error (.unbalanced i) ↔
    IsLeast {j | UnmatchedAt text j} i ∨ (¬∃ j, UnmatchedAt text j) ∧ QuotesClosed text ∧
      countOutside ')' text < countOutside '(' text ∧ i = byteLength text := by
  have h := scanned_scan text
  generalize Token.scan text = result at h
  constructor
  · rintro rfl
    cases h with
    | unmatched hi => exact .inl hi
    | opened hno hq hlt => exact .inr ⟨hno, hq, hlt, rfl⟩
  · rintro (hi | ⟨hno, hq, hlt, rfl⟩)
    · cases h with
      | unmatched hj => rw [hj.unique hi]
      | openQuote hno hq hp => exact absurd ⟨i, hi.1⟩ hno
      | opened hno hq hlt => exact absurd ⟨i, hi.1⟩ hno
      | tokens hno hq hle hts => exact absurd ⟨i, hi.1⟩ hno
    · cases h with
      | unmatched hj => exact absurd ⟨_, hj.1⟩ hno
      | openQuote hno' hodd hp => exact absurd hq hodd
      | opened hno' hq' hlt' => rfl
      | tokens hno' hq' hle hts => exact absurd hlt hle

theorem scan_eq_openQuote_iff : Token.scan text = .error (.openQuote i) ↔
    (¬∃ j, UnmatchedAt text j) ∧ ¬QuotesClosed text ∧ IsGreatest {j | QuoteAt text j} i := by
  have h := scanned_scan text
  generalize Token.scan text = result at h
  constructor
  · rintro rfl
    cases h with
    | openQuote hno hodd hp => exact ⟨hno, hodd, hp⟩
  · rintro ⟨hno, hodd, hi⟩
    cases h with
    | unmatched hj => exact absurd ⟨_, hj.1⟩ hno
    | openQuote hno' hodd' hp => rw [hp.unique hi]
    | opened hno' hq hlt => exact absurd hq hodd
    | tokens hno' hq hle hts => exact absurd hq hodd

namespace Expr

theorem readChars_of_blank (h : Blank text) : readChars text = .error .blank := by
  unfold readChars
  rw [if_pos (List.isEmpty_iff.2 (trim_eq_nil_iff.2 h))]

/-- **A text is refused for a parenthesis or a quote exactly when it cannot be cut into tokens**: the
tokens of a text are balanced, and what is wrong with a clause is no such error. -/
theorem readChars_eq_lexical_iff (hx : x.IsLexical) :
    readChars text = .error x ↔ Token.scan text = .error x := by
  by_cases hb : Blank text
  · rw [readChars_of_blank hb, scan_of_blank hb]
    constructor
    · intro h
      cases h
      exact absurd hx id
    · intro h
      cases h
  · have hread : readChars text = Token.scan text >>= ofTokens := by
      unfold readChars
      rw [if_neg fun h => hb (trim_eq_nil_iff.1 (List.isEmpty_iff.1 h))]
    rw [hread, bind_eq_error]
    constructor
    · rintro (h | ⟨ts, hts, h⟩)
      · exact h
      · exact absurd hx (ofTokens_error_not_lexical (balanced_of_scan hts) h)
    · exact .inl

/-- **Errors of parentheses and quotes are exact, and come before all others.** A text is refused for a
parenthesis at the offset `i`, in bytes, exactly when `i` is the first place where one is closed
outside quotes before which as many are closed as opened; or when there is no such place, the quotes
come in pairs, more parentheses are opened than closed, and `i` is the end of the text. It is refused
for an open quote exactly when there is no such place and the number of quotes is odd, and then the
offset is that of the last quote. Blank texts are refused as blank. -/
theorem read_lexical_error (text : String) :
    (∀ i, UnmatchedAt text.toList i → i < text.utf8ByteSize) ∧
    (∀ i, read text = .error (.unbalanced i) ↔
      IsLeast {j | UnmatchedAt text.toList j} i ∨
        (¬∃ j, UnmatchedAt text.toList j) ∧ QuotesClosed text.toList ∧
          countOutside ')' text.toList < countOutside '(' text.toList ∧ i = text.utf8ByteSize) ∧
    (∀ i, read text = .error (.openQuote i) ↔
      (¬∃ j, UnmatchedAt text.toList j) ∧ ¬QuotesClosed text.toList ∧
        IsGreatest {j | QuoteAt text.toList j} i) ∧
    (Blank text.toList → read text = .error .blank) := by
  have hsize := byteLength_toList text
  have hunbalanced : ∀ i, (ExprError.unbalanced i).IsLexical := fun _ => trivial
  have hopenQuote : ∀ i, (ExprError.openQuote i).IsLexical := fun _ => trivial
  refine ⟨fun i hi => ?_, fun i => ?_, fun i => ?_, readChars_of_blank⟩
  · rw [← hsize]
    exact hi.lt
  · rw [← hsize, read, readChars_eq_lexical_iff (hunbalanced i), scan_eq_unbalanced_iff]
  · rw [read, readChars_eq_lexical_iff (hopenQuote i), scan_eq_openQuote_iff]

/-- Offsets count bytes, of which `é` has two, and what stands inside quotes does not count. -/
theorem read_lexical_error_bytes :
    (read "é == \"(\" ) && (x" = .error (.unbalanced 10) ∧
      IsLeast {j | UnmatchedAt "é == \"(\" ) && (x".toList j} 10) ∧
    (read "(é == \"é)" = .error (.openQuote 7) ∧
      IsGreatest {j | QuoteAt "(é == \"é)".toList j} 7) ∧
    (read "((é < 1 &&)" = .error (.unbalanced 12) ∧ ¬∃ j, UnmatchedAt "((é < 1 &&)".toList j) ∧
    Blank " \t".toList ∧ read " \t" = .error .blank := by
  have hclosed : read "é == \"(\" ) && (x" = .error (.unbalanced 10) := by rfl
  have hquote : read "(é == \"é)" = .error (.openQuote 7) := by rfl
  have hopened : read "((é < 1 &&)" = .error (.unbalanced 12) := by rfl
  have hblank : Blank " \t".toList := List.all_eq_true.1 (by rfl)
  refine ⟨⟨hclosed, ?_⟩, ⟨hquote, ?_⟩, ⟨hopened, ?_⟩, hblank, (read_lexical_error _).2.2.2 hblank⟩
  · rcases ((read_lexical_error _).2.1 10).1 hclosed with hleast | ⟨-, -, hcount, -⟩
    · exact hleast
    · exact absurd hcount (by decide)
  · exact (((read_lexical_error _).2.2.1 7).1 hquote).2.2
  · rcases ((read_lexical_error _).2.1 12).1 hopened with hleast | ⟨hno, -⟩
    · exact absurd ((read_lexical_error _).1 12 hleast.1) (by decide)
    · exact hno

end Expr

end EventSieve
