import EventSieve.Expr.Reader
import EventSieve.Expr.Verdict

/-!
# Sieves

A sieve is a filter expression read once, to be checked against many events. It keeps the text it
was made from.

* `Sieve.ofText`: the sieve of a text.
* `Sieve.accepts`: the verdict on an event.
-/

namespace EventSieve

/-- A filter expression, as a text and as a tree. -/
structure Sieve where
  /-- The text exactly as given. -/
  text : String
  root : Expr

namespace Sieve

/-- The sieve of a text. -/
def ofText (text : String) : Except ExprError Sieve :=
  match Expr.read text with
  | .ok root => .ok ⟨text, root⟩
  | .error e => .error e

/-- Whether an event passes a sieve. -/
def accepts {ε : Type} [EventLike ε] (s : Sieve) (event : ε) : Bool := s.root.holdsOf event

/-- The canonical spelling of a sieve's expression. -/
def render (s : Sieve) : String := s.root.render

/-- Two sieves are equal when their texts and their trees are. -/
def equals (a b : Sieve) : Bool := a.text == b.text && a.root == b.root

instance : BEq Sieve := ⟨equals⟩

end Sieve

end EventSieve
