import Mathlib.Order.Bounds.Defs
import EventSieve.Proofs.Text.Offsets
import EventSieve.Proofs.Token.Moves

/-!
# Parentheses and quotes of a text

What a text itself says about its parentheses and quotes, and how a scan keeps count of it.

* `countOutside c s`: how often a character stands outside quotes, where an even number of quotes
  precedes it.
* `UnmatchedAt s i`: at the byte offset `i` a parenthesis is closed outside quotes before which as many
  are closed as opened; `QuoteAt s i`: a quote stands there.
* `Scan.Tallied`: **a scan that has passed a text knows its length, its last open quote and how many
  parentheses are open**, and none was without a partner. Every move keeps this.
-/

namespace EventSieve

open Text

instance : DecidablePred QuotesClosed := fun s => inferInstanceAs (Decidable (s.count '"' % 2 = 0))

/-- How often a character stands in a text outside quotes. -/
def countOutside (c : Char) (s : List Char) : Nat :=
  (List.range s.length).countP fun i => decide (s[i]? = some c ∧ QuotesClosed (s.take i))

/-- A parenthesis is closed at the byte offset `i`, outside quotes, before which as many are closed as
opened. -/
def UnmatchedAt (s : List Char) (i : Nat) : Prop :=
  ∃ u, u ++ [')'] <+: s ∧ byteLength u = i ∧ QuotesClosed u ∧ countOutside '(' u = countOutside ')' u

/-- A quote stands at the byte offset `i`. -/
def QuoteAt (s : List Char) (i : Nat) : Prop := ∃ u, u ++ ['"'] <+: s ∧ byteLength u = i

variable {s u : List Char} {c d : Char} {i : Nat}

theorem countOutside_concat (d : Char) (s : List Char) (c : Char) : countOutside d (s ++ [c]) =
    countOutside d s + if c = d ∧ QuotesClosed s then 1 else 0 := by
  unfold countOutside
  rw [List.length_append, List.length_singleton, List.range_succ, List.countP_append]
  congr 1
  · -- the places before the new character are the same
    refine List.countP_congr fun i hi => ?_
    have hlt : i < s.length := List.mem_range.1 hi
    rw [List.getElem?_append_left hlt, List.take_append_of_le_length (Nat.le_of_lt hlt)]
  · rw [List.countP_singleton]
    simp

theorem UnmatchedAt.lt (h : UnmatchedAt s i) : i < byteLength s := by
  obtain ⟨u, hu, rfl, -⟩ := h
  exact byteLength_lt hu

theorem QuoteAt.lt (h : QuoteAt s i) : i < byteLength s := by
  obtain ⟨u, hu, rfl⟩ := h
  exact byteLength_lt hu

theorem unmatchedAt_concat : UnmatchedAt (s ++ [c]) i ↔ UnmatchedAt s i ∨
    c = ')' ∧ byteLength s = i ∧ QuotesClosed s ∧ countOutside '(' s = countOutside ')' s :=
  exists_concat_isPrefix_concat

theorem quoteAt_concat : QuoteAt (s ++ [c]) i ↔ QuoteAt s i ∨ c = '"' ∧ byteLength s = i :=
  exists_concat_isPrefix_concat

/-- A quote that ends a text is its last one. -/
theorem isGreatest_quoteAt_concat (s : List Char) :
    IsGreatest {i | QuoteAt (s ++ ['"']) i} (byteLength s) := by
  refine ⟨quoteAt_concat.2 (.inr ⟨rfl, rfl⟩), fun i hi => ?_⟩
  rcases quoteAt_concat.1 hi with hi | ⟨-, hi⟩
  · exact Nat.le_of_lt hi.lt
  · exact Nat.le_of_eq hi.symm

/-- Another character does not change where quotes stand. -/
theorem quoteAt_concat_of_ne (hc : c ≠ '"') : QuoteAt (s ++ [c]) i ↔ QuoteAt s i := by
  rw [quoteAt_concat]
  simp [hc]

namespace Scan

variable {r t : Scan} {text : List Char}

theorem Move.offset_eq (h : Move r c t) : t.offset = r.offset + c.utf8Size := by
  cases h <;> rfl

theorem Move.quote_eq (h : Move r c t) :
    t.quote = if c = '"' then if r.quote = none then some r.offset else none else r.quote := by
  cases h with
  | quoted hq => simp [keep, hq]
  | quote hq => simp [keep, hq]
  | opening hq => rfl
  | closing hq hd => rfl
  | @connective k before hq hp => rw [if_neg k.char_ne_quote]; rfl
  | plain hq h1 h2 h3 hk => simp [keep, hq, h1]

/-- An open parenthesis is one more, and a closed one is one less, of those there are. -/
theorem Move.depth_eq (h : Move r c t) : t.depth + (if c = ')' ∧ r.quote = none then 1 else 0) =
    r.depth + if c = '(' ∧ r.quote = none then 1 else 0 := by
  cases h with
  | quoted hq => simp [keep, hq]
  | quote hq => simp [keep]
  | opening hq => simp [emit, hq]
  | closing hq hd =>
    simp only [emit, hq, and_self, if_true]
    rw [if_neg (by decide)]
    omega
  | @connective k before hq hp =>
    obtain ⟨-, h2, h3⟩ := connective_char_ne k
    simp [emit, h2, h3]
  | plain hq h1 h2 h3 hk => simp [keep, h2, h3]

/-- What a scan that has passed `text` knows of it. -/
structure Tallied (text : List Char) (s : Scan) : Prop where
  offset_eq : s.offset = byteLength text
  quote_iff : s.quote = none ↔ QuotesClosed text
  quote_last : ∀ p, s.quote = some p → IsGreatest {i | QuoteAt text i} p
  depth_eq : countOutside '(' text = countOutside ')' text + s.depth
  matched : ∀ i, ¬UnmatchedAt text i

theorem tallied_start : Tallied [] start :=
  ⟨rfl, iff_of_true rfl quotesClosed_nil, fun _ h => absurd h nofun, rfl,
    fun i h => absurd h.lt (Nat.not_lt_zero i)⟩

/-- **Every move keeps the tally.** -/
theorem Tallied.move (h : Tallied text r) (hm : Move r c t) : Tallied (text ++ [c]) t := by
  have hquote := hm.quote_eq
  have hdepth := hm.depth_eq
  simp only [h.quote_iff] at hdepth
  refine ⟨?_, ?_, ?_, ?_, ?_⟩
  · rw [hm.offset_eq, h.offset_eq, byteLength_concat]
  · rw [quotesClosed_concat, ← h.quote_iff, hquote]
    by_cases hc : c = '"' <;> by_cases hq : r.quote = none <;> simp [hc, hq]
  · intro p hp
    rw [hquote] at hp
    by_cases hc : c = '"'
    · subst hc
      by_cases hq : r.quote = none
      · have hlast := isGreatest_quoteAt_concat text
        simp only [hq, if_true, Option.some.injEq] at hp
        rwa [← hp, h.offset_eq]
      · simp [hq] at hp
    · rw [if_neg hc] at hp
      simp only [quoteAt_concat_of_ne hc]
      exact h.quote_last p hp
  · rw [countOutside_concat, countOutside_concat, h.depth_eq]
    omega
  · intro i hi
    rcases unmatchedAt_concat.1 hi with hi | ⟨rfl, -, hq, hcount⟩
    · exact h.matched i hi
    · -- the parenthesis would be closed while none is open
      have hopen := h.depth_eq
      rw [if_pos ⟨rfl, hq⟩, if_neg fun h => absurd h.1 (by decide)] at hdepth
      omega

theorem tallied_run (h : start.run text = .ok r) : Tallied text r :=
  foldlM_invariant (P := Tallied) tallied_start
    (fun _ _ _ _ h hs => h.move (step_eq_ok_iff.1 hs)) h

end Scan

end EventSieve
