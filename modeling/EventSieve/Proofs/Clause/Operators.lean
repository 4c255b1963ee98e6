import Mathlib.Logic.Basic
import EventSieve.Proofs.Number.Order
import EventSieve.Proofs.Text.Search

/-!
# How the operators go together

The operators read a property and a literal in three ways: as texts that are equal or not, as texts of which one
occurs in the other, and as two numbers. No number that is read is a NaN, so the numbers are always in one of
the three orders.

* `Clause.Applies`, `Clause.AppliesToNumbers`: when a clause has two texts to compare, and when two numbers.
* `Clause.HoldsWith`: the verdict with another operator in place of the clause's own.
* `Clause.holdsWith_cases`, `Clause.holdsWith_numeric`: what there is to know of all operators at once.
* `Clause.operator_laws`: **the laws that follow**, for every clause and every event.
-/

namespace EventSieve

variable {ε : Type} [EventLike ε] {event : ε} {c : Clause} {op : Operator} {actual : String} {l : Literal}
  {a b : Number}

namespace Operator

theorem relates_equal : equal.relates actual l = true ↔ actual = l.text := beq_iff_eq

theorem relates_notEqual : notEqual.relates actual l = true ↔ actual ≠ l.text := bne_iff_ne

/-- Every text occurs in itself. -/
theorem relates_contains (h : actual = l.text) : contains.relates actual l = true := by
  rw [h]
  exact (Text.occursIn_iff _).2 (List.infix_refl _)

/-- **Two numerals have values, and every numeric operator compares these.** Equal texts have equal values. -/
theorem exists_values (ha : Number.read? actual.toList = some a) (hb : Number.read? l.text.toList = some b) :
    ∃ x y : ExtendedRat, (actual = l.text → x = y) ∧
      ∀ op : Operator, op.comparesNumbers = true → (op.relates actual l = true ↔ op.Orders x y) := by
  obtain ⟨x, hx⟩ := Number.exists_value ha
  obtain ⟨y, hy⟩ := Number.exists_value hb
  refine ⟨x, y, ?_, ?_⟩
  · intro heq
    rw [heq, hb] at ha
    cases ha
    exact Option.some.inj (hx.symm.trans hy)
  · intro op hop
    exact relates_iff hop ha (l.number_eq.trans hb) hx hy

end Operator

namespace Clause

/-- A clause applies to an event of the name it asks for, if it asks for one, that has its property. -/
structure Applies (c : Clause) (event : ε) : Prop where
  name : c.eventName = none ∨ c.eventName = some (EventLike.name event)
  property : ∃ actual, EventLike.property? event c.property = some actual

/-- A clause applies to numbers when it applies, and the property and the literal are numerals. -/
structure AppliesToNumbers (c : Clause) (event : ε) : Prop extends c.Applies event where
  actual : ∀ actual, EventLike.property? event c.property = some actual →
    ∃ a, Number.read? actual.toList = some a
  literal : ∃ b, Number.read? c.literal.text.toList = some b

/-- Whether a clause holds of an event with another operator in place of its own. -/
def HoldsWith (c : Clause) (event : ε) (op : Operator) : Prop :=
  ({ c with operator := op } : Clause).holdsOf event = true

/-- **Either no operator makes a clause hold, or it applies** and the operators relate two texts. -/
theorem holdsWith_cases (c : Clause) (event : ε) :
    (¬ c.Applies event ∧ ∀ op, ¬ c.HoldsWith event op) ∨
      ∃ actual, c.Applies event ∧ EventLike.property? event c.property = some actual ∧
        ∀ op : Operator, c.HoldsWith event op ↔ op.relates actual c.literal = true := by
  have hname : (∀ name, c.eventName = some name → name = EventLike.name event) ↔
      c.eventName = none ∨ c.eventName = some (EventLike.name event) := by
    cases c.eventName with
    | none => simp
    | some name => simp
  by_cases h : c.Applies event
  · right
    obtain ⟨actual, hactual⟩ := h.property
    refine ⟨actual, h, hactual, ?_⟩
    intro op
    unfold HoldsWith
    rw [holdsOf_iff, hname]
    simp [h.name, hactual]
  · left
    refine ⟨h, ?_⟩
    intro op hop
    unfold HoldsWith at hop
    rw [holdsOf_iff, hname] at hop
    obtain ⟨hadmits, actual, hactual, -⟩ := hop
    exact h ⟨hadmits, actual, hactual⟩

/-- **Either no numeric operator makes a clause hold, or it applies to numbers** and the operators compare two
values, which are equal if the texts are. -/
theorem holdsWith_numeric (c : Clause) (event : ε) :
    (¬ c.AppliesToNumbers event ∧ ∀ op : Operator, op.comparesNumbers = true → ¬ c.HoldsWith event op) ∨
      c.AppliesToNumbers event ∧ ∃ x y : ExtendedRat, (c.HoldsWith event .equal → x = y) ∧
        ∀ op : Operator, op.comparesNumbers = true → (c.HoldsWith event op ↔ op.Orders x y) := by
  obtain ⟨hnot, hnone⟩ | ⟨actual, happlies, hactual, hholds⟩ := c.holdsWith_cases event
  · left
    exact ⟨fun h => hnot h.toApplies, fun op _ => hnone op⟩
  by_cases hnumbers : c.AppliesToNumbers event
  · right
    obtain ⟨a, ha⟩ := hnumbers.actual actual hactual
    obtain ⟨b, hb⟩ := hnumbers.literal
    obtain ⟨x, y, hequal, hrelates⟩ := Operator.exists_values ha hb
    refine ⟨hnumbers, x, y, ?_, ?_⟩
    · intro h
      exact hequal (Operator.relates_equal.1 ((hholds .equal).1 h))
    · intro op hop
      rw [hholds]
      exact hrelates op hop
  · left
    refine ⟨hnumbers, ?_⟩
    intro op hop h
    -- an operator that holds compares two numbers
    obtain ⟨hread, hliteral⟩ := Operator.exists_reads hop ((hholds op).1 h)
    refine hnumbers ⟨happlies, ?_, hliteral⟩
    intro other hother
    rw [hactual] at hother
    cases hother
    exact hread

/-- **Exactly one of equality and inequality holds** of an event that a clause applies to, and none of the two
of any other one. A text that is equal is also contained. -/
theorem textual_laws (c : Clause) (event : ε) :
    (c.Applies event → Xor (c.HoldsWith event .equal) (c.HoldsWith event .notEqual)) ∧
    (¬ c.Applies event → ¬ c.HoldsWith event .equal ∧ ¬ c.HoldsWith event .notEqual) ∧
    (c.HoldsWith event .equal → c.HoldsWith event .contains) := by
  obtain ⟨hnot, hnone⟩ | ⟨actual, happlies, -, hholds⟩ := c.holdsWith_cases event
  · exact ⟨fun h => absurd h hnot, fun _ => ⟨hnone .equal, hnone .notEqual⟩, fun h => absurd h (hnone .equal)⟩
  · refine ⟨?_, fun h => absurd happlies h, ?_⟩
    · intro _
      rw [hholds, hholds, Operator.relates_equal, Operator.relates_notEqual, xor_iff_iff_not, not_not]
    · rw [hholds, hholds, Operator.relates_equal]
      exact Operator.relates_contains

/-- Equal texts that are numerals are equal as numbers. -/
theorem equal_numbers (c : Clause) (event : ε) (h : c.HoldsWith event .equal)
    (hliteral : ∃ b, Number.read? c.literal.text.toList = some b) :
    c.HoldsWith event .lessEqual ∧ c.HoldsWith event .greaterEqual := by
  obtain ⟨hnot, -⟩ | ⟨-, x, y, hequal, hholds⟩ := c.holdsWith_numeric event
  · obtain ⟨-, hnone⟩ | ⟨actual, happlies, hactual, hholds⟩ := c.holdsWith_cases event
    · exact absurd h (hnone .equal)
    · -- the property's text is the literal's
      have htext : actual = c.literal.text := Operator.relates_equal.1 ((hholds .equal).1 h)
      refine absurd ⟨happlies, ?_, hliteral⟩ hnot
      intro other hother
      rw [hactual] at hother
      cases hother
      rwa [htext]
  · have hlessEqual : c.HoldsWith event .lessEqual ↔ x ≤ y := hholds .lessEqual rfl
    have hgreaterEqual : c.HoldsWith event .greaterEqual ↔ y ≤ x := hholds .greaterEqual rfl
    rw [hlessEqual, hgreaterEqual]
    exact ⟨(hequal h).le, (hequal h).ge⟩

/-- **Exactly one of each two opposite comparisons holds** of an event that a clause applies to with numbers, and
no comparison of any other one. What is at most a number is less, or also at least. -/
theorem numeric_laws (c : Clause) (event : ε) :
    ¬ (c.HoldsWith event .less ∧ c.HoldsWith event .greaterEqual) ∧
    ¬ (c.HoldsWith event .greater ∧ c.HoldsWith event .lessEqual) ∧
    (Xor (c.HoldsWith event .less) (c.HoldsWith event .greaterEqual) ↔ c.AppliesToNumbers event) ∧
    (Xor (c.HoldsWith event .greater) (c.HoldsWith event .lessEqual) ↔ c.AppliesToNumbers event) ∧
    (c.HoldsWith event .lessEqual ↔
      c.HoldsWith event .less ∨ c.HoldsWith event .lessEqual ∧ c.HoldsWith event .greaterEqual) := by
  obtain ⟨hnot, hnone⟩ | ⟨hnumbers, x, y, -, hholds⟩ := c.holdsWith_numeric event
  · simp [hnone .less rfl, hnone .lessEqual rfl, hnone .greater rfl, hnone .greaterEqual rfl, hnot]
  · have hless : c.HoldsWith event .less ↔ x < y := hholds .less rfl
    have hlessEqual : c.HoldsWith event .lessEqual ↔ x ≤ y := hholds .lessEqual rfl
    have hgreater : c.HoldsWith event .greater ↔ y < x := hholds .greater rfl
    have hgreaterEqual : c.HoldsWith event .greaterEqual ↔ y ≤ x := hholds .greaterEqual rfl
    have hopposite : ∀ v w : ExtendedRat, Xor (v < w) (w ≤ v) := by
      intro v w
      rw [xor_iff_iff_not, not_le]
    rw [hless, hlessEqual, hgreater, hgreaterEqual]
    refine ⟨fun h => not_le.2 h.1 h.2, fun h => not_le.2 h.1 h.2, iff_of_true (hopposite x y) hnumbers,
      iff_of_true (hopposite y x) hnumbers, ?_⟩
    rw [← le_antisymm_iff, ← le_iff_lt_or_eq]

/-- **How the operators go together**, whatever the clause and the event. Equality and inequality are opposites
where the clause applies, and `<` and `>=`, and `>` and `<=`, where it applies to numbers; elsewhere none of
them holds. `<=` is `<` or both `<=` and `>=`; and equal texts contain each other and are equal as numbers. -/
theorem operator_laws (c : Clause) (event : ε) :
    (c.Applies event → Xor (c.HoldsWith event .equal) (c.HoldsWith event .notEqual)) ∧
    (¬ c.Applies event → ¬ c.HoldsWith event .equal ∧ ¬ c.HoldsWith event .notEqual) ∧
    ¬ (c.HoldsWith event .less ∧ c.HoldsWith event .greaterEqual) ∧
    ¬ (c.HoldsWith event .greater ∧ c.HoldsWith event .lessEqual) ∧
    (Xor (c.HoldsWith event .less) (c.HoldsWith event .greaterEqual) ↔ c.AppliesToNumbers event) ∧
    (Xor (c.HoldsWith event .greater) (c.HoldsWith event .lessEqual) ↔ c.AppliesToNumbers event) ∧
    (c.HoldsWith event .lessEqual ↔
      c.HoldsWith event .less ∨ c.HoldsWith event .lessEqual ∧ c.HoldsWith event .greaterEqual) ∧
    (c.HoldsWith event .equal → c.HoldsWith event .contains) ∧
    (c.HoldsWith event .equal → (∃ b, Number.read? c.literal.text.toList = some b) →
      c.HoldsWith event .lessEqual ∧ c.HoldsWith event .greaterEqual) := by
  obtain ⟨hopposite, hneither, hcontains⟩ := c.textual_laws event
  obtain ⟨hless, hgreater, hless', hgreater', hequal⟩ := c.numeric_laws event
  exact ⟨hopposite, hneither, hless, hgreater, hless', hgreater', hequal, hcontains, c.equal_numbers event⟩

/-- A text that is no numeral differs from the property or not, but is in no order with it. A numeral is, also
when it is of another kind: `31.0` is at most and at least `0x1F`, and not equal to it. -/
theorem operator_laws_hexadecimal :
    let event := TypedRow.ofFields "E" [("a", some (.text "0x1F"))]
    let word : Clause := ⟨none, "a", .equal, .ofText "x1"⟩
    let number : Clause := ⟨some "E", "a", .equal, .ofText "31.0"⟩
    Xor (word.HoldsWith event .equal) (word.HoldsWith event .notEqual) ∧
      ¬ Xor (word.HoldsWith event .less) (word.HoldsWith event .greaterEqual) ∧
      Xor (number.HoldsWith event .greater) (number.HoldsWith event .lessEqual) := by
  intro event word number
  have hactual : EventLike.property? event "a" = some "0x1F" := by decide
  have hword : word.Applies event := ⟨.inl rfl, "0x1F", hactual⟩
  have hnot : ¬ word.AppliesToNumbers event := by
    intro h
    have hnone : Number.read? word.literal.text.toList = none := by decide
    obtain ⟨b, hb⟩ := h.literal
    rw [hnone] at hb
    cases hb
  have hnumber : number.AppliesToNumbers event := by
    refine ⟨⟨.inr rfl, "0x1F", hactual⟩, ?_, Option.isSome_iff_exists.1 (by decide)⟩
    intro actual h
    obtain rfl : "0x1F" = actual := Option.some.inj (hactual.symm.trans h)
    exact Option.isSome_iff_exists.1 (by decide)
  obtain ⟨hopposite, -, -, -, hless, -⟩ := word.operator_laws event
  obtain ⟨-, -, -, -, -, hgreater, -⟩ := number.operator_laws event
  exact ⟨hopposite hword, mt hless.1 hnot, hgreater.2 hnumber⟩

end Clause

end EventSieve
