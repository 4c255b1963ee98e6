import EventSieve.Clause.Basic
import EventSieve.Expr.Error
import EventSieve.Text.Alphanumeric

/-!
# Reading clauses

A clause is read from left to right: the event name and `::` (which touch each other and the
property), the property, the operator (the longest that fits), the literal.

* `cutEventName?`, `cutOperator?`, `literalText?`: the parts.
* `Clause.read`: the whole, with the first part that is wrong as the error.
-/

namespace EventSieve

/-- Whether a character may occur in a property's name. -/
def inProperty (c : Char) : Bool := Text.isAlphanumeric c || c == '_' || c == '.'

/-- Whether a character may occur in an event's name: neither blank nor part of an operator. -/
def inEventName (c : Char) : Bool := !Text.isBlank c && !inOperator c

namespace Clause

/-- A clause's text split into the event name before `::`, if there is one, and the rest. None if
the event name is empty or `::` touches a blank or the end. -/
def cutEventName? (clause : List Char) : Option (Option (List Char) × List Char) :=
  let (head, tail) := clause.span inEventName
  match Text.splitAtPair ':' ':' head with
  | some (name, rest) =>
    let rest := rest ++ tail
    if name.isEmpty || rest.isEmpty || Text.startsBlank rest then none else some (some name, rest)
  | none =>
    if [':', ':'].isPrefixOf (Text.trimStart tail) then none else some (none, clause)

/-- The operator word, in lower case. -/
def containsWord : List Char := ['c', 'o', 'n', 't', 'a', 'i', 'n', 's']

/-- The operator word in any letter case, with a blank after it, split off a text. -/
def cutContains? (s : List Char) : Option (Operator × List Char) :=
  let (word, rest) := s.splitAt containsWord.length
  if word.map Char.toLower = containsWord ∧ Text.startsBlank rest then some (.contains, rest)
  else none

/-- The operator that a text starts with and the text after it; the longest spelling wins. -/
def cutOperator? : List Char → Option (Operator × List Char)
  | '=' :: '=' :: s => some (.equal, s)
  | '!' :: '=' :: s => some (.notEqual, s)
  | '<' :: '=' :: s => some (.lessEqual, s)
  | '>' :: '=' :: s => some (.greaterEqual, s)
  | '=' :: s => some (.equal, s)
  | '<' :: s => some (.less, s)
  | '>' :: s => some (.greater, s)
  | s => cutContains? s

/-- The text of a literal: what stands between two quotes, with no quote inside, or a bare text
without quotes, blanks and operator characters. -/
def literalText? : List Char → Option (List Char)
  | '"' :: quoted =>
    if quoted.getLast? = some '"' ∧ '"' ∉ quoted.dropLast then some quoted.dropLast else none
  | text =>
    if text.any fun c => c == '"' || inOperator c || Text.isBlank c then none else some text

/-- The clause that a text without blanks around it spells. -/
def readTrimmed (clause : List Char) : Except ExprError Clause := do
  let shown := String.ofList clause
  let some (eventName, rest) := cutEventName? clause | throw (.badEventName shown)
  let (property, rest) := rest.span inProperty
  if property.isEmpty then throw (.noProperty shown)
  let some (operator, rest) := cutOperator? (Text.trimStart rest)
    | throw (.noOperator shown)
  let literal := Text.trim rest
  if literal.isEmpty then throw (.noLiteral shown)
  let some text := literalText? literal | throw (.badLiteral shown)
  return {
    eventName := eventName.map String.ofList
    property := String.ofList property
    operator
    literal := .ofText (String.ofList text) }

/-- The clause that a text spells; blanks around it do not count. -/
def read (text : List Char) : Except ExprError Clause :=
  let clause := Text.trim text
  if clause.isEmpty then .error .blank else readTrimmed clause

end Clause

end EventSieve
