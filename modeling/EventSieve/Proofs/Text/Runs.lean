import Mathlib.Data.List.TakeDrop
import Mathlib.Data.List.TakeWhile
import EventSieve.Text.Basic

/-!
# Runs of characters

A run of characters that pass a test ends where the text after it **stops**: at its end, or at a
character that fails the test.

* `StopsAt p r`: no character that passes `p` starts `r`.
* `takeWhile_of_stopsAt`, `dropWhile_of_stopsAt`, `span_of_stopsAt`: the longest run and what is left of it.
* `run_unique`: **a text is cut in one way into a run and what stops it.**
-/

namespace EventSieve.Text

/-- What is said of the characters of a text is decided by going through the text, and not through all
characters that there are. -/
instance (priority := high) decidableForallMem {q : Char → Prop} [DecidablePred q] (s : List Char) :
    Decidable (∀ c ∈ s, q c) := List.decidableBAll q s

/-- A text does not start with a character that passes a test. -/
def StopsAt (p : Char → Bool) (r : List Char) : Prop := ∀ c, r.head? = some c → p c = false

variable {p : Char → Bool} {s r : List Char} {c : Char}

/-- If passing one test means failing another, it is the same the other way round. -/
theorem eq_false_of_excludes {a b : Bool} (h : a = true → b = false) (hb : b = true) : a = false := by
  cases a with
  | false => rfl
  | true =>
    rw [h rfl] at hb
    exact absurd hb Bool.false_ne_true

theorem stopsAt_nil : StopsAt p [] := fun _ h => nomatch h

theorem stopsAt_cons : StopsAt p (c :: r) ↔ p c = false := by
  simp [StopsAt]

/-- A text stops where its first part does, if that is not empty. -/
theorem StopsAt.append (h : StopsAt p s) (hs : s ≠ []) : StopsAt p (s ++ r) := by
  obtain ⟨c, s, rfl⟩ := List.exists_cons_of_ne_nil hs
  exact stopsAt_cons.2 (stopsAt_cons.1 h)

theorem StopsAt.of_append (h : StopsAt p (s ++ r)) : StopsAt p s := by
  cases s with
  | nil => exact stopsAt_nil
  | cons c s => exact stopsAt_cons.2 (stopsAt_cons.1 h)

theorem StopsAt.of_reverse_append (h : StopsAt p (s ++ r).reverse) : StopsAt p r.reverse := by
  rw [List.reverse_append] at h
  exact h.of_append

theorem StopsAt.of_imp {q : Char → Bool} (h : StopsAt p s) (hqp : ∀ c, q c = true → p c = true) :
    StopsAt q s := by
  intro c hc
  refine Bool.eq_false_iff.2 fun hq => ?_
  exact Bool.false_ne_true ((h c hc).symm.trans (hqp c hq))

/-- A text all of whose characters fail a test stops. -/
theorem stopsAt_of_forall (h : ∀ c ∈ s, p c = false) : StopsAt p s :=
  fun c hc => h c (List.mem_of_head? hc)

theorem startsBlank_eq_false_iff : startsBlank s = false ↔ StopsAt isBlank s := by
  cases s with
  | nil => exact ⟨fun _ => stopsAt_nil, fun _ => rfl⟩
  | cons c s =>
    rw [stopsAt_cons]
    rfl

/-- **The longest run** is the one before the text that stops. -/
theorem takeWhile_of_stopsAt (hs : ∀ c ∈ s, p c = true) (hr : StopsAt p r) :
    (s ++ r).takeWhile p = s := by
  rw [List.takeWhile_append_of_pos hs]
  cases r with
  | nil => simp
  | cons c r => simp [stopsAt_cons.1 hr]

theorem dropWhile_of_stopsAt (hs : ∀ c ∈ s, p c = true) (hr : StopsAt p r) :
    (s ++ r).dropWhile p = r := by
  rw [List.dropWhile_append_of_pos hs]
  cases r with
  | nil => rfl
  | cons c r =>
    rw [List.dropWhile_cons, stopsAt_cons.1 hr]
    rfl

/-- **A text is cut in one way** into a run and a text that stops. -/
theorem run_unique {s' r' : List Char} (hs : ∀ c ∈ s, p c = true) (hr : StopsAt p r)
    (hs' : ∀ c ∈ s', p c = true) (hr' : StopsAt p r') (h : s ++ r = s' ++ r') :
    s = s' ∧ r = r' := by
  have htake := takeWhile_of_stopsAt hs hr
  have hdrop := dropWhile_of_stopsAt hs hr
  rw [h, takeWhile_of_stopsAt hs' hr'] at htake
  rw [h, dropWhile_of_stopsAt hs' hr'] at hdrop
  exact ⟨htake.symm, hdrop.symm⟩

/-- What is left after the longest run does not continue it. -/
theorem stopsAt_dropWhile (p : Char → Bool) (s : List Char) : StopsAt p (s.dropWhile p) := by
  have h := List.head?_dropWhile_not p s
  intro c hc
  rw [hc] at h
  simpa using h

/-- A run before a text that stops is cut off from it. -/
theorem span_of_stopsAt (hs : ∀ c ∈ s, p c = true) (hr : StopsAt p r) : (s ++ r).span p = (s, r) := by
  rw [List.span_eq_takeWhile_dropWhile, takeWhile_of_stopsAt hs hr, dropWhile_of_stopsAt hs hr]

/-- What is cut off is a run, and the rest does not continue it. -/
theorem span_spec (p : Char → Bool) (s : List Char) :
    s = (s.span p).1 ++ (s.span p).2 ∧ (∀ c ∈ (s.span p).1, p c = true) ∧ StopsAt p (s.span p).2 := by
  rw [List.span_eq_takeWhile_dropWhile]
  refine ⟨List.takeWhile_append_dropWhile.symm, ?_, stopsAt_dropWhile p s⟩
  intro c hc
  exact List.mem_takeWhile_imp hc

end EventSieve.Text
