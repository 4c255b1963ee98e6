/-!
# Fallible steps in a row

A pass over a list is a fold whose step may fail. It succeeds exactly when every step does, so what
holds at the start and is kept by each step holds at the end.

* `bind_eq_ok`, `foldlM_append_eq_ok`: a success is made of successes.
* `bind_eq_error`, `foldlM_eq_error_iff`: a failure is that of the first step that fails.
* `mapError_bind`, `foldlM_mapError`: the failures of a pass, told in other words.
* `foldlM_invariant`: **an invariant of the part already passed and the state reached.**
-/

namespace EventSieve

variable {ε ε' α β σ : Type}

theorem ok_bind (a : α) (f : α → Except ε β) : (.ok a : Except ε α) >>= f = f a := rfl

theorem bind_eq_ok {x : Except ε α} {f : α → Except ε β} {b : β} :
    x >>= f = .ok b ↔ ∃ a, x = .ok a ∧ f a = .ok b := by
  constructor
  · intro h
    cases x with
    | error e => cases h
    | ok a => exact ⟨a, rfl, h⟩
  · rintro ⟨a, rfl, h⟩
    exact h

theorem bind_eq_error {x : Except ε α} {f : α → Except ε β} {e : ε} :
    x >>= f = .error e ↔ x = .error e ∨ ∃ a, x = .ok a ∧ f a = .error e := by
  constructor
  · intro h
    cases x with
    | error e' =>
      cases h
      exact .inl rfl
    | ok a => exact .inr ⟨a, rfl, h⟩
  · rintro (rfl | ⟨a, rfl, h⟩)
    · rfl
    · exact h

theorem mapError_bind (g : ε → ε') (x : Except ε α) (f : α → Except ε β) :
    (x >>= f).mapError g = x.mapError g >>= fun a => (f a).mapError g := by
  cases x with
  | error e => rfl
  | ok a => rfl

variable {f : σ → α → Except ε σ} {s t : σ}

theorem foldlM_cons_eq_ok {x : α} {xs : List α} :
    (x :: xs).foldlM f s = .ok t ↔ ∃ r, f s x = .ok r ∧ xs.foldlM f r = .ok t := by
  rw [List.foldlM_cons, bind_eq_ok]

theorem foldlM_append_eq_ok {xs ys : List α} :
    (xs ++ ys).foldlM f s = .ok t ↔ ∃ r, xs.foldlM f s = .ok r ∧ ys.foldlM f r = .ok t := by
  rw [List.foldlM_append, bind_eq_ok]

theorem foldlM_singleton_eq_ok {x : α} : [x].foldlM f s = .ok t ↔ f s x = .ok t := by
  rw [foldlM_cons_eq_ok]
  constructor
  · rintro ⟨r, h, ht⟩
    cases ht
    exact h
  · exact fun h => ⟨t, h, rfl⟩

/-- A pass whose steps tell their failures in other words does so itself. -/
theorem foldlM_mapError {g : ε → ε'} {f' : σ → α → Except ε' σ}
    (h : ∀ s x, f' s x = (f s x).mapError g) (xs : List α) (s : σ) :
    xs.foldlM f' s = (xs.foldlM f s).mapError g := by
  induction xs generalizing s with
  | nil => rfl
  | cons x xs ih =>
    rw [List.foldlM_cons, List.foldlM_cons, mapError_bind, h]
    congr 1
    exact funext ih

/-- The pass fails as its first failing step does, whatever is left to be passed. -/
theorem foldlM_eq_error {x : α} {xs ys : List α} {e : ε} (h : xs.foldlM f s = .ok t)
    (he : f t x = .error e) : (xs ++ x :: ys).foldlM f s = .error e := by
  rw [List.foldlM_append, h]
  show (x :: ys).foldlM f t = .error e
  rw [List.foldlM_cons, he]
  rfl

/-- **A pass fails exactly when one of its steps does**, after steps that did not. -/
theorem foldlM_eq_error_iff {xs : List α} {e : ε} : xs.foldlM f s = .error e ↔
    ∃ ys x zs t, xs = ys ++ x :: zs ∧ ys.foldlM f s = .ok t ∧ f t x = .error e := by
  constructor
  · intro h
    induction xs generalizing s with
    | nil => cases h
    | cons x xs ih =>
      rw [List.foldlM_cons, bind_eq_error] at h
      rcases h with he | ⟨r, hr, h⟩
      · exact ⟨[], x, xs, s, rfl, rfl, he⟩
      · obtain ⟨ys, y, zs, t, rfl, ht, he⟩ := ih h
        exact ⟨x :: ys, y, zs, t, rfl, foldlM_cons_eq_ok.2 ⟨r, hr, ht⟩, he⟩
  · rintro ⟨ys, x, zs, t, rfl, ht, he⟩
    exact foldlM_eq_error ht he

/-- **What holds before the first step and is kept by every step holds after the last.** `P` relates
the items already passed to the state reached. -/
theorem foldlM_invariant {P : List α → σ → Prop} (h₀ : P [] s)
    (step : ∀ xs x r t, P xs r → f r x = .ok t → P (xs ++ [x]) t) {xs : List α}
    (h : xs.foldlM f s = .ok t) : P xs t := by
  -- the state reached is an accumulator: the induction is over what is still to be passed
  have key : ∀ (ys zs : List α) (r : σ), P zs r → ys.foldlM f r = .ok t → P (zs ++ ys) t := by
    intro ys
    induction ys with
    | nil =>
      intro zs r hP hr
      cases hr
      rwa [List.append_nil]
    | cons y ys ih =>
      intro zs r hP hr
      obtain ⟨r', hy, hys⟩ := foldlM_cons_eq_ok.1 hr
      have := ih (zs ++ [y]) r' (step zs y r r' hP hy) hys
      rwa [List.append_assoc] at this
  exact key xs [] s h₀ h

end EventSieve
