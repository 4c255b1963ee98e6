import EventSieve.Proofs.Expr.Ranges

/-!
# The parentheses of a text's tokens

* `Nested depth ts`: `depth` parentheses are open after the tokens, and none was closed that was not
  open. `Nested.move`: a scan's tokens are nested as deep as the scan counts.
* `balanced_of_scan`: **the tokens of a text are balanced.**
-/

namespace EventSieve

open Scan

/-- After the tokens `ts` so many parentheses are open, and none was closed that was not open. -/
structure Nested (depth : Nat) (ts : List Token) : Prop where
  nesting_eq : nesting ts = depth
  nonneg : ∀ u, u <+: ts → 0 ≤ nesting u

variable {d d' : Nat} {p text : List Char} {f ts : List Token} {m : Token} {s t : Scan} {c : Char}

theorem nested_nil : Nested 0 [] := by
  refine ⟨rfl, fun u hu => ?_⟩
  rw [List.prefix_nil.1 hu]
  exact Int.le_refl 0

/-- One more token, which opens or closes at most one parenthesis. -/
theorem Nested.concat (h : Nested d ts) (hd : (d' : Int) = d + nesting [m]) :
    Nested d' (ts ++ [m]) := by
  have hn : nesting (ts ++ [m]) = d' := by
    rw [nesting_append, h.nesting_eq, hd]
  refine ⟨hn, fun u hu => ?_⟩
  rcases List.prefix_concat_iff.1 hu with rfl | hu
  · rw [hn]
    exact Int.natCast_nonneg d'
  · exact h.nonneg u hu

theorem Nested.balanced (h : Nested 0 ts) : Balanced ts :=
  ⟨h.nesting_eq, fun u v huv => h.nonneg u ⟨v, huv.symm⟩⟩

/-- Clauses change nothing. -/
theorem Nested.foundWith (h : Nested d f.reverse) : Nested d (foundWith p f).reverse := by
  rw [foundWith_def]
  split
  · exact h
  · rw [List.reverse_cons]
    exact h.concat (Int.add_zero _).symm

/-- **A scan's tokens are nested as deep as it counts.** -/
theorem Nested.move (h : Nested s.depth s.found.reverse) (hm : Move s c t) :
    Nested t.depth t.found.reverse := by
  cases hm with
  | quoted hq => exact h
  | quote hq => exact h
  | opening hq =>
    simp only [emit, List.reverse_cons]
    exact h.foundWith.concat (Int.natCast_succ _)
  | closing hq hd =>
    simp only [emit, List.reverse_cons]
    refine h.foundWith.concat ?_
    rw [nesting_closing]
    omega
  | connective hq hp =>
    simp only [emit, List.reverse_cons]
    exact h.foundWith.concat (Int.add_zero _).symm
  | plain hq h1 h2 h3 hk => exact h

theorem nested_run (h : start.run text = .ok s) : Nested s.depth s.found.reverse :=
  foldlM_invariant (P := fun _ s => Nested s.depth s.found.reverse) nested_nil
    (fun _ _ _ _ h hs => h.move (step_eq_ok_iff.1 hs)) h

/-- **The tokens of a text are balanced.** -/
theorem balanced_of_scan (h : Token.scan text = .ok ts) : Balanced ts := by
  obtain ⟨s, hs, ht⟩ := Token.scan_eq_ok_iff.1 h
  obtain ⟨-, hd, hf⟩ := tokens_eq_ok_iff.1 ht
  have hn := (nested_run hs).foundWith (p := s.pending)
  rw [hf, hd, List.reverse_reverse] at hn
  exact hn.balanced

end EventSieve
