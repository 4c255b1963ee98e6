import Mathlib.Data.List.TakeDrop
import EventSieve.Proofs.Expr.Ranges

/-!
# Tokens that are refused

* `Clause.read_error`, `Level.fold_eq_error_iff`: the errors of a clause, and when a level is not folded.
* `Assembly.Refusal.eq_closing`: the only token whose refusal tells of a parenthesis.
* `Expr.ofTokens_eq_error_iff`: **the first refused token is the error**, and the end of the tokens if
  none is refused.
* `Assembly.nesting_run`: the levels around the current one are the parentheses still open.
* `Expr.ofTokens_error_not_lexical`: **no parenthesis is missed while a tree is assembled**, if the
  tokens are balanced.
-/

namespace EventSieve

open Assembly

/-- Whether an error tells of a parenthesis without a partner or of an open quote. -/
def ExprError.IsLexical : ExprError → Prop
  | .unbalanced _ | .openQuote _ => True
  | _ => False

/-- Whether an error tells of a part of a clause. -/
def ExprError.IsOfClause : ExprError → Prop
  | .badEventName _ | .noProperty _ | .noOperator _ | .noLiteral _ | .badLiteral _ => True
  | _ => False

/-- **What is wrong with a clause** that is not blank is one of its parts. -/
theorem Clause.readTrimmed_error {text : List Char} {x : ExprError}
    (h : readTrimmed text = .error x) : x.IsOfClause := by
  unfold readTrimmed at h
  simp only [List.span_eq_takeWhile_dropWhile] at h
  -- the parts of a clause, in the order in which they are read
  split at h
  · split at h
    · cases h
      exact trivial
    · split at h
      · split at h
        · cases h
          exact trivial
        · split at h
          · cases h
          · cases h
            exact trivial
      · cases h
        exact trivial
  · cases h
    exact trivial

/-- A clause that cannot be read is blank, or one of its parts is wrong. -/
theorem Clause.read_error {text : List Char} {x : ExprError} (h : Clause.read text = .error x) :
    Text.trim text = [] ∧ x = .blank ∨ x.IsOfClause := by
  unfold read at h
  dsimp only at h
  split at h
  · next hb =>
    cases h
    exact .inl ⟨List.isEmpty_iff.1 hb, rfl⟩
  · exact .inr (readTrimmed_error h)

/-- What is wrong with a clause is neither a parenthesis nor a quote of the text around it. -/
theorem Clause.read_error_not_lexical {text : List Char} {x : ExprError}
    (h : Clause.read text = .error x) : ¬x.IsLexical := by
  rcases read_error h with ⟨-, rfl⟩ | hx
  · exact id
  · cases x with
    | badEventName | noProperty | noOperator | noLiteral | badLiteral => exact id
    | _ => exact hx.elim

/-- The ways in which a level cannot be folded: an operand is missing after its last connective, or it
has no connective either, or else it has no operand. -/
inductive Level.Unfoldable (l : Level) : Bool → ExprError → Prop
  | noRightOperand {parenthesized : Bool} {k : Connective} : l.wantsOperand = true →
      l.connectives.back? = some k → Unfoldable l parenthesized (.noRightOperand k)
  | nothing {parenthesized : Bool} : l.wantsOperand = true → l.connectives.back? = none →
      Unfoldable l parenthesized (if parenthesized then .emptyParentheses else .noOperand)
  | operandless {parenthesized : Bool} : l.wantsOperand = false → l.operands.toList.reverse = [] →
      Unfoldable l parenthesized .emptyParentheses

/-- **Folding a level fails in one of these ways.** -/
theorem Level.fold_eq_error_iff {l : Level} {parenthesized : Bool} {x : ExprError} :
    l.fold parenthesized = .error x ↔ l.Unfoldable parenthesized x := by
  constructor
  · intro h
    unfold fold at h
    split at h
    · next hw =>
      split at h
      · next k hk =>
        cases h
        exact .noRightOperand hw hk
      · next hk =>
        cases h
        exact .nothing hw hk
    · next hw =>
      split at h
      · next ho =>
        cases h
        exact .operandless (Bool.eq_false_iff.2 hw) ho
      · cases h
  · intro h
    unfold fold
    cases h with
    | noRightOperand hw hk => rw [if_pos hw, hk]
    | nothing hw hk => rw [if_pos hw, hk]
    | operandless hw ho => rw [if_neg (Bool.eq_false_iff.1 hw), ho]

theorem Level.fold_error_not_lexical {l : Level} {parenthesized : Bool} {x : ExprError}
    (h : l.fold parenthesized = .error x) : ¬x.IsLexical := by
  cases fold_eq_error_iff.1 h with
  | noRightOperand hw hk => exact id
  | nothing hw hk =>
    cases parenthesized with
    | true => exact id
    | false => exact id
  | operandless hw ho => exact id

namespace Assembly

variable {a b : Assembly} {t : Token} {ts us vs : List Token} {x : ExprError}

/-- A parenthesis is missed only where it is closed without having been opened. -/
theorem Refusal.eq_closing (h : Refusal a t x) (hx : x.IsLexical) :
    t = .closing ∧ a.enclosing = [] := by
  cases h with
  | clause hw => exact absurd hx id
  | unread hw hr => exact absurd hx (Clause.read_error_not_lexical hr)
  | opening hw => exact absurd hx id
  | unopened => exact ⟨rfl, rfl⟩
  | unfinished hf => exact absurd hx (Level.fold_error_not_lexical hf)
  | connective hw => exact absurd hx id

/-- **Every move counts the open parentheses.** -/
theorem Move.nesting_eq (h : Move a t b) :
    (b.enclosing.length : Int) = a.enclosing.length + nesting [t] := by
  cases h with
  | clause hw hr => exact (Int.add_zero _).symm
  | opening hw => exact Int.natCast_succ _
  | closing hf =>
    have hone : nesting [.closing] = -1 := nesting_closing
    simp only [List.length_cons, hone]
    omega
  | connective hw => exact (Int.add_zero _).symm

/-- **The levels around the current one are the parentheses still open.** -/
theorem nesting_run (h : start.run ts = .ok a) : nesting ts = a.enclosing.length := by
  refine foldlM_invariant (P := fun ts a => nesting ts = a.enclosing.length) rfl ?_ h
  intro us t a b ha hstep
  have hmove := (step_eq_ok_iff.1 hstep).nesting_eq
  rw [nesting_append, ha, hmove]

theorem result_of_open (h : a.enclosing ≠ []) : a.result = .error (.unbalanced 0) := by
  obtain ⟨l, ls⟩ := a
  cases ls with
  | nil => exact absurd rfl h
  | cons outer ls => rfl

end Assembly

namespace Expr

variable {a : Assembly} {t : Token} {ts us vs : List Token} {x : ExprError}

theorem ofTokens_eq_result (h : start.run ts = .ok a) : ofTokens ts = a.result := by
  have hrun : ofTokens ts = start.run ts >>= Assembly.result := rfl
  rw [hrun, h]
  rfl

/-- **A refused token is the error, whatever follows it.** -/
theorem ofTokens_of_refusal (h : start.run us = .ok a) (hx : Refusal a t x) (vs : List Token) :
    ofTokens (us ++ t :: vs) = .error x :=
  bind_eq_error.2 (.inl (foldlM_eq_error h (step_eq_error_iff.2 hx)))

/-- **The error is that of the first refused token**, and that of the end if no token is refused. -/
theorem ofTokens_eq_error_iff : ofTokens ts = .error x ↔
    (∃ us t vs a, ts = us ++ t :: vs ∧ start.run us = .ok a ∧ Refusal a t x) ∨
      ∃ a, start.run ts = .ok a ∧ a.result = .error x := by
  have hrun : ofTokens ts = .error x ↔
      start.run ts = .error x ∨ ∃ a, start.run ts = .ok a ∧ a.result = .error x := bind_eq_error
  rw [hrun]
  refine or_congr ?_ Iff.rfl
  unfold run
  simp only [foldlM_eq_error_iff, step_eq_error_iff]

/-- **Balanced tokens have no parenthesis without a partner**, so that none is missed while their tree
is assembled. -/
theorem ofTokens_error_not_lexical (hts : Balanced ts) (h : ofTokens ts = .error x) :
    ¬x.IsLexical := by
  intro hx
  rcases ofTokens_eq_error_iff.1 h with ⟨us, t, vs, a, rfl, ha, hr⟩ | ⟨a, ha, hr⟩
  · -- one parenthesis more would be closed than opened
    obtain ⟨rfl, hnil⟩ := hr.eq_closing hx
    have hopen := nesting_run ha
    have hnonneg := hts.nonneg (us ++ [.closing]) vs (by simp)
    rw [nesting_append, hopen, hnil, nesting_closing] at hnonneg
    exact absurd hnonneg (by decide)
  · have hopen := nesting_run ha
    rw [hts.nesting_eq] at hopen
    have hnil : a.enclosing = [] := List.eq_nil_of_length_eq_zero (by omega)
    rw [result, hnil] at hr
    exact Level.fold_error_not_lexical hr hx

end Expr

end EventSieve
