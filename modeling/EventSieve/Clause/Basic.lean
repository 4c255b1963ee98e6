import EventSieve.Number.Reader
import EventSieve.Text.Basic

/-!
# Clauses

A clause compares one property of an event with a literal: `[EventName::]Property Operator Literal`.

* `Operator`: the seven comparisons; `Operator.spelling`, `Operator.name`,
  `Operator.comparesNumbers`.
* `Literal`: a text together with its numeric reading, which the type ties to the text.
* `Clause`: an optional event name, a property, an operator and a literal.
* `Clause.render`: a clause with single spaces around its operator. Its literal is quoted when it is
  empty or holds a blank, a parenthesis, a doubled `&` or `|`, or one of `< > = !`.
-/

namespace EventSieve

/-- How a property is compared with a literal. -/
inductive Operator
  | equal
  | notEqual
  | less
  | lessEqual
  | greater
  | greaterEqual
  | contains
deriving DecidableEq

namespace Operator

/-- The spelling of an operator in rendered clauses. -/
def spelling : Operator → String
  | equal => "=="
  | notEqual => "!="
  | less => "<"
  | lessEqual => "<="
  | greater => ">"
  | greaterEqual => ">="
  | contains => "Contains"

/-- The name of an operator in the serial form of a tree. -/
def name : Operator → String
  | equal => "Equal"
  | notEqual => "NotEqual"
  | less => "Less"
  | lessEqual => "LessEqual"
  | greater => "Greater"
  | greaterEqual => "GreaterEqual"
  | contains => "Contains"

/-- Whether an operator compares numbers. -/
def comparesNumbers : Operator → Bool
  | less | lessEqual | greater | greaterEqual => true
  | equal | notEqual | contains => false

/-- Whether a numeric operator holds of two numbers in the given order. -/
def admits : Operator → Ordering → Bool
  | less, o => o == .lt
  | lessEqual, o => o != .gt
  | greater, o => o == .gt
  | greaterEqual, o => o != .lt
  | equal, _ | notEqual, _ | contains, _ => false

end Operator

/-- The right-hand side of a clause: a text, without the quotes it may have been written in, and
the number it reads as. -/
structure Literal where
  text : String
  number : Option Number
  /-- The number is the reading of the text. -/
  number_eq : number = Number.read? text.toList

namespace Literal

/-- The literal with the given text. -/
def ofText (text : String) : Literal := ⟨text, Number.read? text.toList, rfl⟩

/-- Two literals are equal when their texts and their numbers are. -/
def equals (a b : Literal) : Bool := a.text == b.text && a.number == b.number

instance : BEq Literal := ⟨equals⟩

/-- A literal is determined by its text. -/
theorem ext_text {a b : Literal} (h : a.text = b.text) : a = b := by
  obtain ⟨text, _, rfl⟩ := a
  obtain ⟨_, _, rfl⟩ := b
  cases h
  rfl

end Literal

/-- A comparison of a property with a literal. -/
structure Clause where
  /-- When present, the clause holds only of events of exactly this name. -/
  eventName : Option String
  property : String
  operator : Operator
  literal : Literal

namespace Clause

/-- Two clauses are equal when all their parts are. -/
def equals (a b : Clause) : Bool :=
  a.eventName == b.eventName && a.property == b.property && a.operator == b.operator &&
    a.literal == b.literal

instance : BEq Clause := ⟨equals⟩

end Clause

/-- Whether a character occurs in a symbolic operator. -/
def inOperator (c : Char) : Bool := c == '<' || c == '>' || c == '=' || c == '!'

/-- Whether a literal's text cannot stand bare in an expression. -/
def Literal.needsQuotes (text : List Char) : Bool :=
  text.isEmpty ||
    text.any (fun c => Text.isBlank c || c == '(' || c == ')' || inOperator c) ||
    Text.occursIn ['&', '&'] text || Text.occursIn ['|', '|'] text

namespace Literal

/-- The spelling of a literal, in quotes where it needs them. -/
def render (l : Literal) : String :=
  if needsQuotes l.text.toList then "\"" ++ l.text ++ "\"" else l.text

end Literal

namespace Clause

/-- The spelling of a clause's event name with the separator, if it has one. -/
def renderEventName (c : Clause) : String :=
  match c.eventName with
  | some name => name ++ "::"
  | none => ""

/-- The spelling of a clause. -/
def render (c : Clause) : String :=
  c.renderEventName ++ c.property ++ " " ++ c.operator.spelling ++ " " ++ c.literal.render

end Clause

end EventSieve
