/-!
# Tokens

The pieces of an expression: clauses, the two connectives and parentheses.
-/

namespace EventSieve

/-- What joins two expressions. -/
inductive Connective
  | and
  | or
deriving DecidableEq

/-- The spelling of a connective. -/
def Connective.spelling : Connective → String
  | and => "&&"
  | or => "||"

/-- The character that a connective doubles. -/
def Connective.char : Connective → Char
  | and => '&'
  | or => '|'

/-- A piece of an expression. -/
inductive Token
  | clause (text : List Char)
  | connective (k : Connective)
  | opening
  | closing
deriving DecidableEq

/-- The spelling of a token. -/
def Token.spelling : Token → List Char
  | clause text => text
  | connective k => [k.char, k.char]
  | opening => ['(']
  | closing => [')']

/-- A connective is spelled with its character twice. -/
theorem Connective.spelling_toList (k : Connective) : k.spelling.toList = [k.char, k.char] := by
  cases k <;> decide

end EventSieve
