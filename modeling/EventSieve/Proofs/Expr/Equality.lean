import EventSieve.Expr.Basic
import EventSieve.Proofs.Number.Integers

/-!
# Equality of trees

Comparing trees with a list of pending pairs tells exactly the different trees apart. The only value
that differs from itself is a NaN, and no literal reads as one.

* `Number.isNaN_of_read?`: a reading is never a NaN.
* Equality is lawful for literals, clauses and trees, so `a == b` is `a = b`.
-/

namespace EventSieve

/-- A double made from a decimal is no NaN. -/
theorem Binary64.isNaN_ofDecimal (negative : Bool) (d : Decimal) :
    (Binary64.ofDecimal negative d).isNaN = false := by
  have h : (ofDecimal negative d).magnitude ≤ infinityMagnitude := Nat.min_le_right _ _
  exact decide_eq_false (Nat.not_lt.2 h)

/-- A double equals itself unless it is a NaN. -/
theorem Binary64.beq_self {x : Binary64} (h : x.isNaN = false) : (x == x) = true := by
  change x.equals x = true
  simp [equals, h]

/-- **No text reads as a NaN.** -/
theorem Number.isNaN_of_read? {text : List Char} {x : Binary64}
    (h : Number.read? text = some (.float x)) : x.isNaN = false := by
  obtain ⟨negative, body, -, ⟨_, _, -, -, -, h⟩ | ⟨_, -, h⟩ | ⟨d, -, h⟩⟩ := read?_cases h
  · cases h
  · cases h
  · cases h
    exact Binary64.isNaN_ofDecimal negative d

/-- What a text reads as equals itself. -/
theorem Number.read?_beq_self (text : List Char) :
    (Number.read? text == Number.read? text) = true := by
  cases h : Number.read? text with
  | none => rfl
  | some n =>
    rw [Option.some_beq_some]
    cases n with
    | integer v => exact beq_self_eq_true v
    | float x => exact Binary64.beq_self (isNaN_of_read? h)

instance : LawfulBEq Literal where
  eq_of_beq {a b} h := by
    have ht : (a.text == b.text) = true := (Bool.and_eq_true_iff.1 h).1
    exact Literal.ext_text (eq_of_beq ht)
  rfl {a} := by
    have hn : (a.number == a.number) = true := by
      rw [a.number_eq]
      exact Number.read?_beq_self _
    exact Bool.and_eq_true_iff.2 ⟨beq_self_eq_true a.text, hn⟩

theorem Clause.equals_iff {a b : Clause} : a.equals b = true ↔ a = b := by
  obtain ⟨_, _, _, _⟩ := a
  obtain ⟨_, _, _, _⟩ := b
  simp [Clause.equals, and_assoc]

instance : LawfulBEq Clause where
  eq_of_beq h := Clause.equals_iff.1 h
  rfl := Clause.equals_iff.2 rfl

/-- The pending pairs are all equal pairs exactly if they are pairs of equal trees. -/
theorem Expr.pairsEqual_iff (pending : List (Expr × Expr)) :
    pairsEqual pending = true ↔ ∀ p ∈ pending, p.1 = p.2 := by
  fun_induction pairsEqual pending with
  | case1 => simp
  | case2 a b pending ih => simp [ih]
  | case3 k left right k' left' right' pending ih => simp [ih, and_assoc]
  | case4 pending h1 h2 h3 =>
    -- the pair in front is a clause and a connective
    match pending with
    | [] => exact absurd rfl h1
    | (clause a, clause b) :: pending => exact absurd rfl (h2 a b pending)
    | (join k l r, join k' l' r') :: pending => exact absurd rfl (h3 k l r k' l' r' pending)
    | (clause a, join k l r) :: pending => simp
    | (join k l r, clause a) :: pending => simp

theorem Expr.equals_iff {a b : Expr} : a.equals b = true ↔ a = b := by
  unfold equals
  rw [pairsEqual_iff, List.forall_mem_singleton]

instance : LawfulBEq Expr where
  eq_of_beq h := Expr.equals_iff.1 h
  rfl := Expr.equals_iff.2 rfl

end EventSieve
