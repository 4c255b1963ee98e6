import EventSieve.Proofs.Clause.Grammar

/-!
# Reading the parts of a clause

What each part of the reader finds, stated without the order in which it looks.

* `cutEventName?_named`, `cutEventName?_unnamed`: the event name before the first `::`.
* `cutOperator?_symbol`, `cutOperator?_word`, `cutOperator?_eq_some`: the operator that a text
  starts with.
* `literalText?_eq_some_iff`: the text of a literal.
-/

namespace EventSieve.Clause

open Text

variable {t r a l name text : List Char} {op : Operator}

theorem cutEventName?_def (t : List Char) : cutEventName? t =
    match splitAtPair ':' ':' (t.takeWhile inEventName) with
    | some (name, rest) =>
      if name.isEmpty || (rest ++ t.dropWhile inEventName).isEmpty ||
          startsBlank (rest ++ t.dropWhile inEventName) then none
      else some (some name, rest ++ t.dropWhile inEventName)
    | none =>
      if [':', ':'].isPrefixOf (trimStart (t.dropWhile inEventName)) then none
      else some (none, t) := by
  unfold cutEventName?
  rewrite [List.span_eq_takeWhile_dropWhile]
  rfl

/-- **A named clause**: the name ends at the first `::`, and something that is not blank follows. -/
theorem cutEventName?_named :
    cutEventName? t = some (some name, r) ↔
      t = name ++ ':' :: ':' :: r ∧ IsEventName name ∧ r ≠ [] ∧ StopsAt isBlank r := by
  rw [cutEventName?_def]
  constructor
  · intro h
    split at h
    · next name' rest hs =>
      obtain ⟨htake, hname⟩ := splitAtPair_eq_some_iff.1 hs
      split at h
      · cases h
      · next hc =>
        simp only [Bool.or_eq_true, List.isEmpty_iff, not_or, Bool.not_eq_true] at hc
        cases h
        refine ⟨?_, ⟨hc.1.1, fun c hc => ?_, hname⟩, hc.1.2, startsBlank_eq_false_iff.1 hc.2⟩
        · rw [← List.cons_append, ← List.cons_append, ← List.append_assoc, ← htake,
            List.takeWhile_append_dropWhile]
        · refine List.mem_takeWhile_imp (l := t) ?_
          rw [htake]
          exact List.mem_append_left _ hc
    · split at h
      · cases h
      · cases h
  · rintro ⟨rfl, hname, hr, hb⟩
    have hchars : ∀ c ∈ name ++ [':', ':'], inEventName c = true := by
      intro c hc
      rcases List.mem_append.1 hc with hc | hc
      · exact hname.chars c hc
      · have hall : [':', ':'].all inEventName = true := by decide
        exact List.all_eq_true.1 hall c hc
    have happ : name ++ ':' :: ':' :: r = name ++ [':', ':'] ++ r := by simp
    rw [happ, List.takeWhile_append_of_pos hchars, List.dropWhile_append_of_pos hchars]
    have hs : splitAtPair ':' ':' (name ++ [':', ':'] ++ r.takeWhile inEventName) =
        some (name, r.takeWhile inEventName) :=
      splitAtPair_eq_some_iff.2 ⟨by simp, hname.endsAtPair⟩
    rw [hs]
    dsimp only
    rw [List.takeWhile_append_dropWhile, if_neg]
    simp [hname.ne_nil, hr, startsBlank_eq_false_iff.2 hb]

/-- **An unnamed clause**: `::` is neither in what could be an event's name nor right after it. -/
theorem cutEventName?_unnamed :
    cutEventName? t = some (none, r) ↔ r = t ∧ ¬ [':', ':'] <:+: t.takeWhile inEventName ∧
      ¬ [':', ':'] <+: trimStart (t.dropWhile inEventName) := by
  rw [cutEventName?_def]
  constructor
  · intro h
    split at h
    · split at h
      · cases h
      · cases h
    · next hs =>
      split at h
      · cases h
      · next hp =>
        cases h
        exact ⟨rfl, splitAtPair_eq_none_iff.1 hs, fun hpre => hp (List.isPrefixOf_iff_prefix.2 hpre)⟩
  · rintro ⟨rfl, hs, hp⟩
    rw [splitAtPair_eq_none_iff.2 hs]
    dsimp only
    rw [if_neg fun h => hp (List.isPrefixOf_iff_prefix.1 h)]

theorem cutContains?_eq_some_iff :
    cutContains? r = some (op, a) ↔ op = .contains ∧ startsBlank a = true ∧
      ∃ s, r = s ++ a ∧ s.map Char.toLower = containsWord := by
  unfold cutContains?
  rw [List.splitAt_eq]
  dsimp only
  constructor
  · intro h
    split at h
    · next hw =>
      cases h
      exact ⟨rfl, hw.2, _, (List.take_append_drop _ r).symm, hw.1⟩
    · cases h
  · rintro ⟨rfl, hb, s, rfl, hs⟩
    have hl : s.length = containsWord.length := by
      rw [← hs, List.length_map]
    rw [← hl, List.take_left, List.drop_left, if_pos ⟨hs, hb⟩]

/-- A symbol is read off whole, if what follows does not make it a longer one. -/
theorem cutOperator?_symbol {s : List Char} (hs : s ∈ op.symbols) (ha : StopsAt inOperator a) :
    cutOperator? (s ++ a) = some (op, a) := by
  have hne : ∀ b, a ≠ '=' :: b := by
    rintro b rfl
    exact absurd (stopsAt_cons.1 ha) (by decide)
  cases op with
  | equal =>
    rcases List.mem_pair.1 hs with rfl | rfl
    · simp [cutOperator?]
    · rfl
  | notEqual =>
    rw [List.mem_singleton.1 hs]
    rfl
  | less =>
    rw [List.mem_singleton.1 hs]
    simp [cutOperator?]
  | lessEqual =>
    rw [List.mem_singleton.1 hs]
    rfl
  | greater =>
    rw [List.mem_singleton.1 hs]
    simp [cutOperator?]
  | greaterEqual =>
    rw [List.mem_singleton.1 hs]
    rfl
  | contains => exact absurd hs List.not_mem_nil

/-- A word that is not a symbol starts none. -/
theorem cutOperator?_word (h : StopsAt inOperator r) : cutOperator? r = cutContains? r := by
  unfold cutOperator?
  split
  all_goals first
    | rfl
    | exact absurd (h _ rfl) (by decide)

/-- No operator starts with a colon. -/
theorem cutOperator?_colon (r : List Char) : cutOperator? (':' :: r) = none := by
  rw [cutOperator?_word (stopsAt_cons.2 (by decide))]
  cases h : cutContains? (':' :: r) with
  | none => rfl
  | some cut =>
    obtain ⟨-, -, s, hs, hw⟩ := cutContains?_eq_some_iff.1 h
    cases s with
    | nil => cases hw
    | cons c s =>
      rw [← (List.cons.inj hs).1] at hw
      exact absurd (List.cons.inj hw).1 (by decide)

/-- **The operator that a text starts with**: one of the symbols, or the word before a blank. -/
theorem cutOperator?_eq_some (h : cutOperator? r = some (op, a)) :
    (∃ s ∈ op.symbols, r = s ++ a) ∨ cutContains? r = some (op, a) := by
  unfold cutOperator? at h
  split at h
  · cases h
    exact .inl ⟨['=', '='], by decide, rfl⟩
  · cases h
    exact .inl ⟨['!', '='], by decide, rfl⟩
  · cases h
    exact .inl ⟨['<', '='], by decide, rfl⟩
  · cases h
    exact .inl ⟨['>', '='], by decide, rfl⟩
  · cases h
    exact .inl ⟨['='], by decide, rfl⟩
  · cases h
    exact .inl ⟨['<'], by decide, rfl⟩
  · cases h
    exact .inl ⟨['>'], by decide, rfl⟩
  · exact .inr h

/-- **The text of a literal** is what its spelling says. -/
theorem literalText?_eq_some_iff (hl : l ≠ []) :
    literalText? l = some text ↔ Literal.Spelled l text := by
  constructor
  · intro h
    unfold literalText? at h
    split at h
    · next quoted =>
      split at h
      · next hq =>
        cases h
        obtain ⟨text, rfl⟩ := List.getLast?_eq_some_iff.1 hq.1
        rw [List.dropLast_concat] at hq ⊢
        exact .quoted hq.2
      · cases h
    · split at h
      · cases h
      · next hb =>
        cases h
        refine .bare hl fun c hc => ?_
        rw [Bool.not_eq_true, List.any_eq_false] at hb
        simpa [inLiteral] using hb c hc
  · intro h
    cases h with
    | quoted hq => simp [literalText?, hq]
    | bare hn ht =>
      unfold literalText?
      split
      · next quoted =>
        exact absurd (ht '"' List.mem_cons_self) (by decide)
      · rw [if_neg]
        rw [Bool.not_eq_true, List.any_eq_false]
        intro c hc
        simpa [inLiteral] using ht c hc

end EventSieve.Clause
