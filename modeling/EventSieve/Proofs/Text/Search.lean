import Mathlib.Data.List.Infix
import EventSieve.Text.Basic

/-!
# What searching finds

* `occursIn_iff`: a text occurs in another one when it is an infix of it.
* `EndsAtPair a b s`: in `s` followed by `a` and `b`, that pair occurs at the end and nowhere before.
* `splitAtPair_eq_some_iff`, `splitAtPair_eq_none_iff`: a text is cut at its first pair, and is not
  cut only if it has none.
-/

namespace EventSieve.Text

theorem occursIn_iff {needle : List Char} (s : List Char) :
    occursIn needle s = true ↔ needle <:+: s := by
  induction s with
  | nil => simp [occursIn]
  | cons c s ih => rw [occursIn, Bool.or_eq_true, List.isPrefixOf_iff_prefix, ih, List.infix_cons_iff]

variable {a b : Char}

/-- In `s` followed by `a` and `b`, the first `a` before a `b` is the one that follows `s`. -/
def EndsAtPair (a b : Char) (s : List Char) : Prop :=
  ∀ u v, s ++ [a, b] = u ++ a :: b :: v → u = s

theorem endsAtPair_nil : EndsAtPair a b [] := by
  intro u v h
  have hl := congrArg List.length h
  simp only [List.nil_append, List.length_append, List.length_cons, List.length_nil] at hl
  exact List.eq_nil_of_length_eq_zero (by omega)

/-- One more character before a text makes no earlier pair, if it does not make one itself. -/
theorem EndsAtPair.cons {x y : Char} {r s : List Char} (h : EndsAtPair a b s)
    (hy : s ++ [a, b] = y :: r) (hxy : ¬ (x = a ∧ y = b)) : EndsAtPair a b (x :: s) := by
  intro u v huv
  cases u with
  | nil =>
    rw [List.cons_append, hy, List.nil_append, List.cons.injEq, List.cons.injEq] at huv
    exact absurd ⟨huv.1, huv.2.1⟩ hxy
  | cons z u =>
    rw [List.cons_append, List.cons_append, List.cons.injEq] at huv
    rw [huv.1, h u v huv.2]

/-- A pair that continues a part of a text before its first pair leaves no room between them. -/
theorem EndsAtPair.eq_nil {t w y z : List Char} (h : EndsAtPair a b (t ++ w))
    (hw : w ++ a :: b :: y = a :: b :: z) : w = [] := by
  have hpair : [a, b] <+: w ++ a :: b :: y := ⟨z, by rw [hw]; rfl⟩
  have hword : w ++ [a, b] <+: w ++ a :: b :: y := ⟨y, by simp⟩
  obtain ⟨v, hv⟩ := List.prefix_of_prefix_length_le hpair hword (by simp)
  have ht : t = t ++ w := h t v (by rw [List.append_assoc, ← hv]; rfl)
  exact List.self_eq_append_right.1 ht

/-- What precedes the first pair is determined. -/
theorem EndsAtPair.unique {s t y z : List Char} (hs : EndsAtPair a b s) (ht : EndsAtPair a b t)
    (h : s ++ a :: b :: y = t ++ a :: b :: z) : s = t := by
  rcases List.append_eq_append_iff.1 h with ⟨w, rfl, hw⟩ | ⟨w, rfl, hw⟩
  · rw [ht.eq_nil hw.symm, List.append_nil]
  · rw [hs.eq_nil hw.symm, List.append_nil]

/-- The cut is at the first pair, whatever was passed before. -/
theorem cutAtPair_eq_some {passed s x y : List Char} (h : cutAtPair a b passed s = some (x, y)) :
    ∃ t, x = passed.reverse ++ t ∧ s = t ++ a :: b :: y ∧ EndsAtPair a b t := by
  induction s generalizing passed with
  | nil => simp [cutAtPair] at h
  | cons c s ih =>
    cases s with
    | nil => simp [cutAtPair] at h
    | cons d s =>
      rw [cutAtPair] at h
      split at h
      · next hcd =>
        obtain ⟨rfl, rfl⟩ := hcd
        obtain ⟨rfl, rfl⟩ : passed.reverse = x ∧ s = y := by simpa using h
        exact ⟨[], by simp, rfl, endsAtPair_nil⟩
      · next hcd =>
        obtain ⟨t, hx, hs, ht⟩ := ih h
        obtain ⟨r, hr⟩ : ∃ r, t ++ [a, b] = d :: r := by
          cases t with
          | nil => exact ⟨[b], by simpa using (List.cons.inj hs).1.symm⟩
          | cons z t => exact ⟨t ++ [a, b], by simp [(List.cons.inj hs).1]⟩
        exact ⟨c :: t, by simp [hx], by simp [hs], ht.cons hr hcd⟩

/-- A text without the pair is not cut, and one with it is. -/
theorem cutAtPair_eq_none {passed s : List Char} :
    cutAtPair a b passed s = none ↔ ¬ [a, b] <:+: s := by
  induction s generalizing passed with
  | nil => simp [cutAtPair]
  | cons c s ih =>
    cases s with
    | nil => simp [cutAtPair, List.infix_cons_iff]
    | cons d s =>
      rw [cutAtPair, List.infix_cons_iff, List.cons_prefix_cons, List.cons_prefix_cons]
      split
      · next hcd => simp [hcd]
      · next hcd =>
        rw [ih, not_or]
        exact ⟨fun h => ⟨fun hp => hcd ⟨hp.1.symm, hp.2.1.symm⟩, h⟩, fun h => h.2⟩

/-- **A text is cut at its first pair.** -/
theorem splitAtPair_eq_some_iff {s x y : List Char} :
    splitAtPair a b s = some (x, y) ↔ s = x ++ a :: b :: y ∧ EndsAtPair a b x := by
  constructor
  · intro h
    obtain ⟨t, rfl, hs, ht⟩ := cutAtPair_eq_some h
    exact ⟨hs, ht⟩
  · rintro ⟨hs, hx⟩
    cases h : splitAtPair a b s with
    | none =>
      refine absurd ?_ (cutAtPair_eq_none.1 h)
      exact ⟨x, y, by simp [hs]⟩
    | some p =>
      obtain ⟨x', y'⟩ := p
      obtain ⟨t, rfl, ht, he⟩ := cutAtPair_eq_some h
      have hxt := hx.unique he (hs.symm.trans ht)
      subst hxt
      rw [hs] at ht
      simp only [List.append_cancel_left_eq, List.cons.injEq, true_and] at ht
      rw [ht]

/-- A text is left whole when it has no pair. -/
theorem splitAtPair_eq_none_iff {s : List Char} :
    splitAtPair a b s = none ↔ ¬ [a, b] <:+: s := cutAtPair_eq_none

end EventSieve.Text
