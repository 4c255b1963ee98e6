import Mathlib.Algebra.Order.Ring.Rat
import Mathlib.Data.Int.ConditionallyCompleteOrder
import Mathlib.Data.Nat.Cast.Order.Ring
import Mathlib.Order.Compare
import Mathlib.Order.WithBot
import Mathlib.Tactic.Positivity
import EventSieve.Expr.Verdict

/-!
# Exact values of numbers

* `Binary64.value`, `Number.value?`: the exact value of a number among the rationals with an infinity
  at either end; a NaN has none.
* `Operator.Orders`: what a numeric operator says of two members of an order.
* `Number.extent?`: the place of a number, integer or double, on the line of units. `value?_eq_extent?`:
  **places are values**, and `Extent.compare_eq`: they are in the order of the values.
-/

namespace EventSieve

/-- The rationals with an infinity at either end. -/
abbrev ExtendedRat := WithBot (WithTop ℚ)

/-- What a numeric operator says of two members of an order. -/
def Operator.Orders {α : Type} [LT α] [LE α] : Operator → α → α → Prop
  | less, a, b => a < b
  | lessEqual, a, b => a ≤ b
  | greater, a, b => b < a
  | greaterEqual, a, b => b ≤ a
  | equal, _, _ | notEqual, _, _ | contains, _, _ => False

theorem unitsInOne_cast_pos : (0 : ℚ) < unitsInOne := by exact_mod_cast unitsInOne_pos

/-- The exact value of a finite double. -/
def Binary64.value (x : Binary64) : ℚ := x.units / unitsInOne

/-- The exact value of a number; a NaN has none. -/
def Number.value? : Number → Option ExtendedRat
  | .integer v => some ((v : ℚ) : WithTop ℚ)
  | .float x =>
    if x.isNaN then none
    else if x.isFinite then some (x.value : WithTop ℚ)
    else some (if x.negative then ⊥ else ⊤)

variable {α : Type}

/-- A numeric operator admits the order of two members as it orders them. -/
theorem Operator.admits_compare [LinearOrder α] (op : Operator) (a b : α) :
    op.admits (compare a b) = true ↔ op.Orders a b := by
  cases op with
  | less => exact beq_iff_eq.trans compare_lt_iff_lt
  | lessEqual => exact bne_iff_ne.trans compare_le_iff_le
  | greater => exact beq_iff_eq.trans compare_gt_iff_gt
  | greaterEqual => exact bne_iff_ne.trans compare_ge_iff_ge
  | equal => exact ⟨(fun h => nomatch h), False.elim⟩
  | notEqual => exact ⟨(fun h => nomatch h), False.elim⟩
  | contains => exact ⟨(fun h => nomatch h), False.elim⟩

/-- Integers keep their order among the exact values. -/
theorem integerValue_strictMono : StrictMono fun k : ℤ => (((k : ℚ) : WithTop ℚ) : ExtendedRat) := by
  intro m n hmn
  have hcast : (m : ℚ) < n := by exact_mod_cast hmn
  exact WithBot.coe_lt_coe.2 (WithTop.coe_lt_coe.2 hcast)

/-- Integers are ordered as the numbers they are read as. -/
theorem Operator.orders_integers (op : Operator) (m n : ℤ) :
    op.Orders (((m : ℚ) : WithTop ℚ) : ExtendedRat) (((n : ℚ) : WithTop ℚ) : ExtendedRat) ↔
      op.Orders m n := by
  have hcompare := integerValue_strictMono.cmp_map_eq m n
  rw [cmp_eq_compare, cmp_eq_compare] at hcompare
  rw [← admits_compare, ← admits_compare, hcompare]

/-- The value of a place on the extended integers of units. -/
def Binary64.Extent.value : Binary64.Extent → ExtendedRat
  | minusInfinity => ⊥
  | .at units => (((units : ℚ) / unitsInOne : ℚ) : WithTop ℚ)
  | plusInfinity => ⊤

/-- Counting units keeps the order of values. -/
theorem compare_units (m n : ℤ) :
    compare m n = compare ((((m : ℚ) / unitsInOne : ℚ) : WithTop ℚ) : ExtendedRat)
      ((((n : ℚ) / unitsInOne : ℚ) : WithTop ℚ) : ExtendedRat) := by
  have hmono : StrictMono fun m : ℤ => ((((m : ℚ) / unitsInOne : ℚ) : WithTop ℚ) : ExtendedRat) := by
    intro m n hmn
    have hcast : (m : ℚ) < n := by exact_mod_cast hmn
    have hdiv : (m : ℚ) / unitsInOne < n / unitsInOne :=
      div_lt_div_of_pos_right hcast unitsInOne_cast_pos
    exact WithBot.coe_lt_coe.2 (WithTop.coe_lt_coe.2 hdiv)
  have h := hmono.cmp_map_eq m n
  rw [cmp_eq_compare, cmp_eq_compare] at h
  exact h.symm

theorem Binary64.Extent.compare_eq (p q : Binary64.Extent) :
    p.compare q = Ord.compare p.value q.value := by
  have hbot : ∀ r : ℚ, Ord.compare (⊥ : ExtendedRat) ((r : WithTop ℚ) : ExtendedRat) = .lt :=
    fun r => compare_lt_iff_lt.2 (WithBot.bot_lt_coe _)
  have hbot' : ∀ r : ℚ, Ord.compare ((r : WithTop ℚ) : ExtendedRat) ⊥ = .gt :=
    fun r => compare_gt_iff_gt.2 (WithBot.bot_lt_coe _)
  have htop : ∀ r : ℚ, Ord.compare ((r : WithTop ℚ) : ExtendedRat) ⊤ = .lt :=
    fun r => compare_lt_iff_lt.2 (WithBot.coe_lt_coe.2 (WithTop.coe_lt_top r))
  have htop' : ∀ r : ℚ, Ord.compare (⊤ : ExtendedRat) ((r : WithTop ℚ) : ExtendedRat) = .gt :=
    fun r => compare_gt_iff_gt.2 (WithBot.coe_lt_coe.2 (WithTop.coe_lt_top r))
  have hends : Ord.compare (⊥ : ExtendedRat) ⊤ = .lt := compare_lt_iff_lt.2 bot_lt_top
  have hends' : Ord.compare (⊤ : ExtendedRat) ⊥ = .gt := compare_gt_iff_gt.2 bot_lt_top
  have hsame : ∀ e : ExtendedRat, Ord.compare e e = .eq := fun e => compare_eq_iff_eq.2 rfl
  cases p with
  | minusInfinity =>
    cases q with
    | minusInfinity => exact (hsame ⊥).symm
    | «at» n => exact (hbot _).symm
    | plusInfinity => exact hends.symm
  | «at» m =>
    cases q with
    | minusInfinity => exact (hbot' _).symm
    | «at» n => exact compare_units m n
    | plusInfinity => exact (htop _).symm
  | plusInfinity =>
    cases q with
    | minusInfinity => exact hends'.symm
    | «at» n => exact (htop' _).symm
    | plusInfinity => exact (hsame ⊤).symm

namespace Number

/-- A number's place on the extended integers of units. -/
def extent? : Number → Option Binary64.Extent
  | .integer v => some (.at (v * unitsInOne))
  | .float x => x.extent?

/-- The value of a number is that of its place. -/
theorem value?_eq_extent? (n : Number) : n.value? = n.extent?.map Binary64.Extent.value := by
  cases n with
  | integer v =>
    have hv : ((v * unitsInOne : ℤ) : ℚ) / unitsInOne = v := by
      have hne : (unitsInOne : ℚ) ≠ 0 := ne_of_gt unitsInOne_cast_pos
      push_cast
      exact mul_div_cancel_right₀ _ hne
    rw [value?, extent?, Option.map_some, Binary64.Extent.value, hv]
  | float x =>
    rw [value?, extent?, Binary64.extent?]
    by_cases hnan : x.isNaN = true
    · rw [if_pos hnan, if_pos hnan]
      rfl
    · rw [if_neg hnan, if_neg hnan]
      by_cases hfin : x.isFinite = true
      · rw [if_pos hfin, if_pos hfin]
        rfl
      · rw [if_neg hfin, if_neg hfin]
        cases x.negative <;> rfl

end Number

end EventSieve
