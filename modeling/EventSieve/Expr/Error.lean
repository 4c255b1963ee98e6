import EventSieve.Token.Basic

/-!
# Why an expression is refused

`ExprError` has one constructor for each cause; `ExprError.message` is its wording. Offsets count
the bytes of the UTF-8 encoding of the text before the place they name.
-/

namespace EventSieve

/-- Why a text is not a filter expression. -/
inductive ExprError
  /-- The text is blank. -/
  | blank
  /-- A parenthesis has no partner; the end of the text counts as the place of a missing one. -/
  | unbalanced (offset : Nat)
  /-- Nothing stands between two parentheses. -/
  | emptyParentheses
  /-- Nothing stands before a connective. -/
  | noLeftOperand (connective : Connective)
  /-- Nothing stands after a connective. -/
  | noRightOperand (connective : Connective)
  /-- There is no operand at all. -/
  | noOperand
  /-- Two operands follow each other. -/
  | noConnective (before : Token)
  /-- An event name is empty, or stands apart from its property. -/
  | badEventName (clause : String)
  | noProperty (clause : String)
  | noOperator (clause : String)
  | noLiteral (clause : String)
  | badLiteral (clause : String)
  /-- A quote is never closed. -/
  | openQuote (offset : Nat)
deriving DecidableEq

/-- The wording of an error. -/
def ExprError.message : ExprError → String
  | blank => "Empty filter expression"
  | unbalanced offset => "Unbalanced parentheses at offset " ++ offset.repr
  | emptyParentheses => "Empty parenthesized group"
  | noLeftOperand k => "Missing operand: '" ++ k.spelling ++ "' has no left operand"
  | noRightOperand k => "Missing operand: '" ++ k.spelling ++ "' has no right operand"
  | noOperand => "Missing operand: "
  | noConnective token =>
    "Expected '&&' or '||' between operands: before '" ++ String.ofList token.spelling ++ "'"
  | badEventName clause => "Invalid event name qualifier in: " ++ clause
  | noProperty clause => "Missing property name in: " ++ clause
  | noOperator clause => "Expected a comparison operator in: " ++ clause
  | noLiteral clause => "Missing value after operator in: " ++ clause
  | badLiteral clause => "Invalid value in: " ++ clause
  | openQuote offset => "Unterminated quoted value at offset " ++ offset.repr

end EventSieve
