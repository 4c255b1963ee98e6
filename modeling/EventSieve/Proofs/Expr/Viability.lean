import Mathlib.Data.List.Infix
import EventSieve.Proofs.Expr.Refusals

/-!
# Tokens that can still become an expression

* `Viable`: some continuation of the tokens spells a tree; `FirstHopeless`: the shortest part of a list
  of tokens that is not viable.
* `Assembly.completion`: tokens that complete an assembly, an operand if it waits for one and the
  parentheses still open.
* `viable_iff_run`: **the viable tokens are those that an assembly takes.**
* `Expr.ofTokens_first_hopeless`: **the error is raised at the first hopeless token**, and at the end only
  where more tokens would have helped.
-/

namespace EventSieve

open EventSieve.Expr Assembly Level

/-- Tokens with which an expression can start. -/
def Viable (p : List Token) : Prop := ∃ q e, ofTokens (p ++ q) = .ok e

/-- The shortest part of the tokens `ts`, from their start, with which no expression can start. -/
structure FirstHopeless (ts p : List Token) : Prop where
  isStart : p <+: ts
  hopeless : ¬Viable p
  shortest : ∀ u, u <+: ts → ¬Viable u → p.length ≤ u.length

variable {a : Assembly} {t : Token} {ts us p q : List Token} {x : ExprError}

/-- Tokens that complete an assembly: an operand if the current level waits for one, and the parentheses
that are still open. -/
def Assembly.completion (a : Assembly) : List Token :=
  (if a.current.wantsOperand then [.clause ['a', '=', '1']] else []) ++
    List.replicate a.enclosing.length .closing

/-- A complete level and the levels around it are completed by closing these. -/
theorem run_closings {ls : List Level} (h : EnclosingSpelled ts ls) (links : List (Expr × Connective))
    (e : Expr) : ∃ b tree, run ⟨(ofLinks links).addOperand e, ls⟩ (List.replicate ls.length .closing) = .ok b ∧
      b.result = .ok tree := by
  -- the tree that a level spells is the operand that the level around it waits for
  induction h generalizing links e with
  | nil => exact ⟨_, chain links e, run_nil _, fold_addOperand links e false⟩
  | @cons ts us ls around ho hl ih =>
    obtain ⟨b, tree, hb, hr⟩ := ih around (chain links e)
    have hclose : Move ⟨(ofLinks links).addOperand e, ofLinks around :: ls⟩ .closing
        ⟨(ofLinks around).addOperand (chain links e), ls⟩ := .closing (fold_addOperand links e true)
    exact ⟨b, tree, run_cons_eq_ok.2 ⟨_, hclose, hb⟩, hr⟩

/-- **Every assembly that tokens lead to can be completed.** -/
theorem Assembly.AssemblySpelled.run_completion (h : AssemblySpelled ts a) :
    ∃ b e, a.run a.completion = .ok b ∧ b.result = .ok e := by
  obtain ⟨l, ls⟩ := a
  obtain ⟨outer, inner, -, ho, hi⟩ := h.split
  unfold completion
  by_cases hw : l.wantsOperand = true
  · obtain ⟨links, -, rfl⟩ := hi.links hw
    have hread : Clause.read ['a', '=', '1'] = .ok ⟨none, "a", .equal, .ofText "1"⟩ := by rfl
    have hclause : Move ⟨ofLinks links, ls⟩ (.clause ['a', '=', '1'])
        ⟨(ofLinks links).addOperand (.clause ⟨none, "a", .equal, .ofText "1"⟩), ls⟩ := .clause hw hread
    obtain ⟨b, e, hb, hr⟩ := run_closings ho links (.clause ⟨none, "a", .equal, .ofText "1"⟩)
    refine ⟨b, e, ?_, hr⟩
    rw [if_pos hw]
    exact run_cons_eq_ok.2 ⟨_, hclause, hb⟩
  · obtain ⟨-, -, links, e, -, -, -, rfl⟩ := hi.operand (Bool.eq_false_iff.2 hw)
    rw [if_neg hw]
    exact run_closings ho links e

/-- **The viable tokens are those that an assembly takes one by one.** -/
theorem viable_iff_run : Viable p ↔ ∃ a, start.run p = .ok a := by
  constructor
  · rintro ⟨q, e, h⟩
    obtain ⟨b, hb, -⟩ := bind_eq_ok.1 h
    obtain ⟨a, ha, -⟩ := run_append_eq_ok.1 hb
    exact ⟨a, ha⟩
  · rintro ⟨a, ha⟩
    obtain ⟨b, e, hb, he⟩ := (assemblySpelled_run ha).run_completion
    exact ⟨a.completion, e, bind_eq_ok.2 ⟨b, run_append_eq_ok.2 ⟨a, ha, hb⟩, he⟩⟩

instance : DecidablePred Viable := fun p =>
  match h : start.run p with
  | .ok a => isTrue (viable_iff_run.2 ⟨a, h⟩)
  | .error _ => isFalse fun hp => nomatch h.symm.trans (viable_iff_run.1 hp).choose_spec

theorem viable_nil : Viable [] := viable_iff_run.2 ⟨start, rfl⟩

theorem Viable.of_append (h : Viable (p ++ q)) : Viable p := by
  obtain ⟨r, e, he⟩ := h
  exact ⟨q ++ r, e, by rwa [← List.append_assoc]⟩

/-- **A token makes viable tokens hopeless exactly when it is refused after them.** -/
theorem not_viable_concat_iff (h : start.run us = .ok a) :
    ¬Viable (us ++ [t]) ↔ ∃ x, Refusal a t x := by
  rw [viable_iff_run]
  constructor
  · intro hnot
    rcases move_or_refusal a t with ⟨b, hb⟩ | hx
    · exact absurd ⟨b, run_concat_eq_ok.2 ⟨a, h, hb⟩⟩ hnot
    · exact hx
  · rintro ⟨x, hx⟩ ⟨b, hb⟩
    obtain ⟨a', ha', hm⟩ := run_concat_eq_ok.1 hb
    rw [h] at ha'
    cases ha'
    have hstep := step_eq_ok_iff.2 hm
    rw [step_eq_error_iff.2 hx] at hstep
    cases hstep

/-- **The shortest hopeless part ends with the token that makes it hopeless.** -/
theorem firstHopeless_iff : FirstHopeless ts p ↔
    ∃ us t vs, ts = us ++ t :: vs ∧ p = us ++ [t] ∧ Viable us ∧ ¬Viable (us ++ [t]) := by
  constructor
  · rintro ⟨⟨vs, rfl⟩, hopeless, shortest⟩
    rcases List.eq_nil_or_concat' p with rfl | ⟨us, t, rfl⟩
    · exact absurd viable_nil hopeless
    · refine ⟨us, t, vs, by simp, rfl, ?_, hopeless⟩
      by_contra hus
      have hle := shortest us ⟨t :: vs, by simp⟩ hus
      rw [List.length_append, List.length_singleton] at hle
      omega
  · rintro ⟨us, t, vs, rfl, rfl, hus, ht⟩
    refine ⟨⟨vs, by simp⟩, ht, fun u hu hnot => ?_⟩
    by_contra hlt
    rw [List.length_append, List.length_singleton] at hlt
    -- a shorter part is one of the viable tokens
    have hpart : u <+: us :=
      List.prefix_of_prefix_length_le hu (List.prefix_append us (t :: vs)) (by omega)
    obtain ⟨w, rfl⟩ := hpart
    exact hnot hus.of_append

/-- A level that cannot be folded at the end has no token, or its last one is a connective. -/
theorem Assembly.LevelSpelled.fold_eq_error {l : Level} (h : LevelSpelled ts l)
    (hx : l.fold false = .error x) :
    ts = [] ∧ x = .noOperand ∨ ∃ us k, ts = us ++ [.connective k] ∧ x = .noRightOperand k := by
  cases h with
  | waiting hl =>
    rw [fold_ofLinks, Except.error.injEq] at hx
    cases hl with
    | nil => exact .inl ⟨rfl, hx.symm⟩
    | @concat us vs links e k hl he =>
      rw [List.getLast?_concat] at hx
      exact .inr ⟨us ++ vs, k, rfl, hx.symm⟩
  | complete hl he =>
    rw [fold_addOperand] at hx
    cases hx

/-- **What an assembly reports at the end**, when it has taken all tokens and they spell no tree: a
parenthesis still open, or else an operand that is missing. -/
theorem ofTokens_of_unfinished (h : start.run ts = .ok a) (hx : ofTokens ts = .error x) :
    (0 < nesting ts → x = .unbalanced 0) ∧
    (¬0 < nesting ts → ts = [] ∧ x = .noOperand ∨
      ∃ us k, ts = us ++ [.connective k] ∧ x = .noRightOperand k) := by
  have hopen := nesting_run h
  rw [ofTokens_eq_result h] at hx
  constructor
  · intro hpos
    have hne : a.enclosing ≠ [] := by
      intro hnil
      rw [hopen, hnil] at hpos
      exact absurd hpos (by decide)
    rw [result_of_open hne] at hx
    exact (Except.error.inj hx).symm
  · intro hpos
    have hnil : a.enclosing = [] := List.eq_nil_of_length_eq_zero (by omega)
    obtain ⟨outer, inner, rfl, ho, hi⟩ := (assemblySpelled_run h).split
    rw [hnil] at ho
    cases ho
    rw [result, hnil] at hx
    exact hi.fold_eq_error hx

/-- **Errors are raised at the first hopeless token and depend on nothing after it.** If some part of
the tokens, from their start, is such that no expression starts with it, the shortest one decides the
error, whatever follows it. And if an expression could start with the tokens but they are none, then a
parenthesis is still open, or the last connective has no operand after it, or there is no token at
all. -/
theorem Expr.ofTokens_first_hopeless (ts : List Token) :
    (∀ p, FirstHopeless ts p →
      ∃ x, ofTokens ts = .error x ∧ ∀ q, ofTokens (p ++ q) = .error x) ∧
    ((∀ p, p <+: ts → Viable p) → (¬∃ e, ofTokens ts = .ok e) →
      ∃ x, ofTokens ts = .error x ∧ (0 < nesting ts → x = .unbalanced 0) ∧
        (¬0 < nesting ts → ts = [] ∧ x = .noOperand ∨
          ∃ us k, ts = us ++ [.connective k] ∧ x = .noRightOperand k)) := by
  constructor
  · intro p hp
    obtain ⟨us, t, vs, rfl, rfl, hus, ht⟩ := firstHopeless_iff.1 hp
    obtain ⟨a, ha⟩ := viable_iff_run.1 hus
    obtain ⟨x, hx⟩ := (not_viable_concat_iff ha).1 ht
    refine ⟨x, ofTokens_of_refusal ha hx vs, fun q => ?_⟩
    rw [List.append_assoc]
    exact ofTokens_of_refusal ha hx q
  · intro hviable hnot
    obtain ⟨a, ha⟩ := viable_iff_run.1 (hviable ts (List.prefix_refl ts))
    cases hx : ofTokens ts with
    | ok e => exact absurd ⟨e, hx⟩ hnot
    | error x => exact ⟨x, rfl, ofTokens_of_unfinished ha hx⟩

/-- Empty parentheses are hopeless, whatever follows; an open parenthesis or a connective at the end
is not, and is the error only because nothing follows. -/
theorem Expr.ofTokens_first_hopeless_empty :
    let a : Token := .clause "a==1".toList
    let p : List Token := [a, .connective .and, .opening, .closing]
    FirstHopeless (p ++ [.closing, .opening]) p ∧
    (∀ q, ofTokens (p ++ q) = .error .emptyParentheses) ∧
    (∀ u, u <+: [.opening, a, .connective .or] → Viable u) ∧
    ofTokens [.opening, a, .connective .or] = .error (.unbalanced 0) ∧
    (∀ u, u <+: [a, .connective .or] → Viable u) ∧
    ofTokens [a, .connective .or] = .error (.noRightOperand .or) := by
  intro a p
  have hviable : ∀ ts, Viable ts → ∀ u, u <+: ts → Viable u := by
    rintro ts hts u ⟨v, rfl⟩
    exact hts.of_append
  have hp : FirstHopeless (p ++ [.closing, .opening]) p :=
    firstHopeless_iff.2 ⟨[a, .connective .and, .opening], .closing, _, rfl, rfl,
      by decide +kernel, by decide +kernel⟩
  have hopen := hviable [.opening, a, .connective .or] (by decide +kernel)
  have hlast := hviable [a, .connective .or] (by decide +kernel)
  refine ⟨hp, ?_, hopen, ?_, hlast, ?_⟩
  · obtain ⟨x, hx, hall⟩ := (ofTokens_first_hopeless _).1 p hp
    have hempty : ofTokens (p ++ [.closing, .opening]) = .error .emptyParentheses := by rfl
    rw [hempty] at hx
    cases hx
    exact hall
  · obtain ⟨x, hx, hpos, -⟩ := (ofTokens_first_hopeless _).2 hopen (by rintro ⟨e, he⟩; cases he)
    rw [hx, hpos (by decide)]
  · obtain ⟨x, hx, -, hend⟩ := (ofTokens_first_hopeless _).2 hlast (by rintro ⟨e, he⟩; cases he)
    obtain ⟨hnil, -⟩ | ⟨us, k, hus, rfl⟩ := hend (by decide)
    · cases hnil
    · have hsplit : [a] ++ [.connective .or] = us ++ [.connective k] := hus
      obtain ⟨-, hk⟩ := List.append_inj' hsplit rfl
      cases hk
      exact hx

end EventSieve
