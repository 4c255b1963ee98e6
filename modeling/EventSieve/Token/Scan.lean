import EventSieve.Expr.Error
import EventSieve.Text.Basic

/-!
# Cutting an expression into tokens

The text is passed over once, character by character. Parentheses and doubled `&` or `|` outside
double quotes are tokens; what stands between them, without the blanks around it, is a clause
unless nothing is left of it.

* `Scan`: what is known after a part of the text, and `Scan.step`, one more character.
* `Token.scan`: the tokens of a text. A closing parenthesis without a partner is an error where it
  stands; an open quote, and failing that an open parenthesis, is an error at the end.
-/

namespace EventSieve

/-- What scanning a part of a text has found. -/
structure Scan where
  /-- The length of the part, in bytes of UTF-8. -/
  offset : Nat
  /-- How many parentheses are open. -/
  depth : Nat
  /-- Where the open quote stands, if one is open. -/
  quote : Option Nat
  /-- The characters since the last token that is no clause, last first. -/
  pending : List Char
  /-- The tokens so far, last first. -/
  found : List Token

namespace Scan

/-- Before the first character. -/
def start : Scan := ⟨0, 0, none, [], []⟩

/-- The tokens so far, last first, with the pending characters as a clause unless they are blank. -/
def foundWith (pending : List Char) (found : List Token) : List Token :=
  let text := Text.trim pending.reverse
  if text.isEmpty then found else .clause text :: found

/-- One more character, kept for the clause that is pending. -/
def keep (s : Scan) (c : Char) (quote : Option Nat) : Scan :=
  { s with offset := s.offset + c.utf8Size, quote, pending := c :: s.pending }

/-- A token that ends the pending clause, whose characters are now known to be `pending`. -/
def emit (s : Scan) (c : Char) (pending : List Char) (token : Token) (depth : Nat) : Scan :=
  { s with
    offset := s.offset + c.utf8Size
    depth
    pending := []
    found := token :: foundWith pending s.found }

/-- The connective that a character doubles. -/
def connective? (c : Char) : Option Connective :=
  if c = Connective.and.char then some .and
  else if c = Connective.or.char then some .or
  else none

/-- One more character outside quotes that is neither a quote nor a parenthesis: the second half of
a connective, or a character of a clause. -/
def stepPlain (s : Scan) (c : Char) : Scan :=
  match connective? c, s.pending with
  | some k, last :: before =>
    if last = c then s.emit c before (.connective k) s.depth else s.keep c none
  | _, _ => s.keep c none

/-- One more character. -/
def step (s : Scan) (c : Char) : Except ExprError Scan :=
  if s.quote.isSome then .ok (s.keep c (if c = '"' then none else s.quote))
  else if c = '"' then .ok (s.keep c (some s.offset))
  else if c = '(' then .ok (s.emit c s.pending .opening (s.depth + 1))
  else if c = ')' then
    if s.depth = 0 then .error (.unbalanced s.offset)
    else .ok (s.emit c s.pending .closing (s.depth - 1))
  else .ok (s.stepPlain c)

/-- The tokens of the whole text, once it has ended. -/
def tokens (s : Scan) : Except ExprError (List Token) :=
  match s.quote with
  | some offset => .error (.openQuote offset)
  | none =>
    if s.depth ≠ 0 then .error (.unbalanced s.offset)
    else .ok (foundWith s.pending s.found).reverse

end Scan

/-- The tokens of a text. -/
def Token.scan (text : List Char) : Except ExprError (List Token) := do
  let s ← text.foldlM Scan.step .start
  s.tokens

end EventSieve
