import EventSieve.Event.Fields
import EventSieve.Proofs.Binary64.ReadBack
import EventSieve.Proofs.Expr.Influence
import EventSieve.Proofs.Number.Order

/-!
# Clauses about doubles

A property of a row that is a double is compared by its text, as a property of any other event is. So a
numeric operator does not see the double, but the number that the double's text is read as.

* `Clause.holdsOf_double`: **a clause orders what the double is read back as and its literal**, by their
  exact values; only of an integer from `2⁵³` to `2¹²⁷` can that be another number than the double.
* `Clause.holdsOf_double_ne`: the double `2⁶⁴` is such a number.
-/

namespace EventSieve

variable {row : TypedRow} {c : Clause} {x : Binary64} {n : Number} {i : ℕ} {text : List Char}

namespace Clause

/-- **A clause about a double orders what the double's text is read as and the literal**, by their exact
values. The text is that of the shortest decimal, whose nearest double is the double. If 128 bits hold it as
an integer, it is read as that, and otherwise as the double; so nothing is lost below `2⁵³`, nor past
`2¹²⁷`. -/
theorem holdsOf_double (hop : c.operator.comparesNumbers = true) (hadmits : c.admitsName row.name = true)
    (hposition : row.names.findIdx? (· == c.property) = some i)
    (hvalue : row.value? i = some (.float x)) (hx : x.isFinite = true)
    (hn : c.literal.number = some n) :
    ∃ m y, Number.read? (TypedValue.float x).spelling.toList = some m ∧
      m.value? = some ((x.readBack : WithTop ℚ) : ExtendedRat) ∧ n.value? = some y ∧
      (c.holdsOf row = true ↔ c.operator.Orders ((x.readBack : WithTop ℚ) : ExtendedRat) y) ∧
      Binary64.ofDecimal x.negative (.shortest .up x.magnitude) = x ∧
      (x.readBack = x.value ∨
        ∃ w : ℤ, x.readBack = w ∧ x.printed = w ∧ -2 ^ 127 ≤ w ∧ w < 2 ^ 127) ∧
      (|x.value| < 2 ^ 53 ∨ 2 ^ 127 < |x.value| → x.readBack = x.value) := by
  obtain ⟨m, hread, hm⟩ := Binary64.read?_plainText hx
  have htext : (TypedValue.float x).spelling.toList = x.plainText := String.toList_ofList
  have hliteral : Number.read? c.literal.text.toList = some n := c.literal.number_eq.symm.trans hn
  obtain ⟨y, hy⟩ := Number.exists_value hliteral
  have hproperty : EventLike.property? row c.property = some (TypedValue.float x).spelling := by
    change row.get? c.property = _
    unfold TypedRow.get?
    rw [hposition, Option.bind_some, hvalue]
    rfl
  have hholds : c.holdsOf row = c.operator.relates (TypedValue.float x).spelling c.literal := by
    change (c.admitsName row.name && (EventLike.property? row c.property).any _) = _
    rw [hadmits, hproperty]
    rfl
  have hactual : Number.read? (TypedValue.float x).spelling.toList = some m := by
    rw [htext]
    exact hread
  refine ⟨m, y, hactual, hm, hy, ?_, Binary64.ofDecimal_shortest hx .up, ?_, Binary64.readBack_eq_value hx⟩
  · rw [hholds]
    exact Operator.relates_iff hop hactual hn hm hy
  · unfold Binary64.readBack
    by_cases hint : x.printed.den = 1 ∧ -2 ^ 127 ≤ x.printed ∧ x.printed < 2 ^ 127
    · rw [if_pos hint]
      have hnum : x.printed = x.printed.num := ((Rat.den_eq_one_iff _).1 hint.1).symm
      obtain ⟨-, hlow, hhigh⟩ := hint
      rw [hnum] at hlow hhigh
      exact .inr ⟨x.printed.num, hnum, hnum, by exact_mod_cast hlow, by exact_mod_cast hhigh⟩
    · rw [if_neg hint]
      exact .inl rfl

/-- The double `2⁶⁴` is printed as a larger integer, and so it is found to be larger than itself. -/
theorem holdsOf_double_larger :
    let x := Binary64.ofBits 0x43F0000000000000
    let row : TypedRow := .ofFields "E" [("Q", none), ("P", some (.float x))]
    let c : Clause := ⟨some "E", "P", .greater, .ofText "18446744073709551616"⟩
    x.readBack = 18446744073709552000 ∧ c.holdsOf row = true := by
  intro x row c
  have hprinted : x.printed = ((18446744073709552000 : ℤ) : ℚ) := by
    have hshortest : Decimal.shortest .up x.magnitude = ⟨18446744073709552, 3⟩ := by decide +kernel
    have hpositive : x.negative = false := by decide
    unfold Binary64.printed withSign Decimal.value
    rw [hshortest, hpositive]
    norm_num
  have hback : x.readBack = 18446744073709552000 := by
    unfold Binary64.readBack
    rw [hprinted, if_pos ⟨Rat.den_intCast _, by norm_num, by norm_num⟩]
    norm_num
  have hliteral : c.literal.number = some (.integer 18446744073709551616) := by decide +kernel
  obtain ⟨m, y, -, -, hy, hholds, -⟩ :=
    @holdsOf_double row c x _ 1 rfl (by decide) (by decide) rfl (by decide) hliteral
  obtain rfl := Option.some.inj hy
  refine ⟨hback, hholds.2 ?_⟩
  rw [hback]
  exact WithBot.coe_lt_coe.2 (WithTop.coe_lt_coe.2 (by norm_num))

/-- **The verdict is not that of the double itself**: the double `2⁶⁴` is at most `2⁶⁴`, and the clause
that says so does not hold. -/
theorem holdsOf_double_ne :
    let x := Binary64.ofBits 0x43F0000000000000
    let row : TypedRow := .ofFields "E" [("P", some (.float x))]
    let c : Clause := ⟨none, "P", .lessEqual, .ofText "18446744073709551616"⟩
    x.isFinite = true ∧ x.value = 18446744073709551616 ∧
    ∃ n y, c.literal.number = some n ∧ n.value? = some y ∧
      ¬(c.holdsOf row = true ↔ c.operator.Orders ((x.value : WithTop ℚ) : ExtendedRat) y) := by
  intro x row c
  have hunits : x.units = 18446744073709551616 * (unitsInOne : ℤ) := by decide +kernel
  have hvalue : x.value = 18446744073709551616 := by
    unfold Binary64.value
    rw [hunits]
    push_cast
    exact mul_div_cancel_right₀ _ (ne_of_gt unitsInOne_cast_pos)
  have hliteral : c.literal.number = some (.integer 18446744073709551616) := by decide +kernel
  have hholds : c.holdsOf row = false := by decide +kernel
  refine ⟨by decide, hvalue, _, _, hliteral, rfl, fun hiff => ?_⟩
  have horders : c.operator.Orders ((x.value : WithTop ℚ) : ExtendedRat)
      (((18446744073709551616 : ℤ) : ℚ) : WithTop ℚ) := by
    rw [hvalue]
    exact WithBot.coe_le_coe.2 (WithTop.coe_le_coe.2 (by norm_num))
  rw [hiff.2 horders] at hholds
  exact Bool.noConfusion hholds

end Clause

end EventSieve
