import EventSieve.Event.Basic
import EventSieve.Expr.Basic

/-!
# Checking events

A clause holds of an event that has the name the clause asks for, if any, and has the property,
when the operator relates the property's text to the literal: as texts for equality and
`Contains`, as numbers for the rest. A text that is no numeral is in no numeric relation.

A tree is checked with a stack of the connectives whose left operand is being decided. A right
operand is visited only if the left one leaves the result open.

* `Clause.holdsOf`: the verdict of a clause on an event.
* `Connective.needsRight`: whether a left operand's verdict leaves the result open.
* `Expr.decideM`: the check with the test of a clause in any monad, which sees the clauses that
  are tested and their order.
* `Expr.holdsOf`: the verdict of a tree on an event.
-/

namespace EventSieve

/-- Whether an operator relates a property's text to a literal. -/
def Operator.relates (op : Operator) (actual : String) (expected : Literal) : Bool :=
  match op with
  | .equal => actual == expected.text
  | .notEqual => actual != expected.text
  | .contains => Text.occursIn expected.text.toList actual.toList
  | op =>
    match Number.read? actual.toList, expected.number with
    | some a, some b => (a.compare? b).any op.admits
    | _, _ => false

namespace Clause

/-- Whether a clause allows events of the given name. -/
def admitsName (c : Clause) (name : String) : Bool := c.eventName.all (· == name)

/-- Whether a clause holds of an event. -/
def holdsOf {ε : Type} [EventLike ε] (c : Clause) (event : ε) : Bool :=
  c.admitsName (EventLike.name event) &&
    (EventLike.property? event c.property).any (c.operator.relates · c.literal)

end Clause

/-- Whether a connective's result depends on its right operand, given the left one's verdict. -/
def Connective.needsRight : Connective → Bool → Bool
  | and, verdict => verdict
  | or, verdict => !verdict

namespace Expr

/-- What a check looks at: a tree to be decided, or the verdict of one. -/
inductive Focus
  | tree (e : Expr)
  | verdict (value : Bool)

/-- How many steps a focus may still lead to, apart from the operands that wait. -/
def Focus.size : Focus → Nat
  | tree e => 2 * e.size
  | verdict _ => 0

/-- How many steps waiting operands may still lead to. -/
def waitingSize : List (Connective × Expr) → Nat
  | [] => 0
  | (_, right) :: waiting => 2 * right.size + 1 + waitingSize waiting

/-- Continues a check from its focus. `waiting` holds, innermost first, the connectives whose left
operand is in focus, each with its right operand. -/
@[specialize] def decideM {m : Type → Type} [Monad m] (test : Clause → m Bool) :
    Focus → List (Connective × Expr) → m Bool
  | .tree (clause c), waiting => do
    let value ← test c
    decideM test (.verdict value) waiting
  | .tree (join k left right), waiting => decideM test (.tree left) ((k, right) :: waiting)
  | .verdict value, [] => pure value
  | .verdict value, (k, right) :: waiting =>
    if k.needsRight value then decideM test (.tree right) waiting
    else decideM test (.verdict value) waiting
termination_by focus waiting => focus.size + waitingSize waiting
decreasing_by
  all_goals simp only [Focus.size, waitingSize, size]
  all_goals omega

/-- The verdict of a tree on an event. -/
def holdsOf {ε : Type} [EventLike ε] (e : Expr) (event : ε) : Bool :=
  Id.run (decideM (fun c => pure (c.holdsOf event)) (.tree e) [])

end Expr

end EventSieve
