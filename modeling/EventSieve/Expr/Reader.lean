import EventSieve.Clause.Reader
import EventSieve.Expr.Basic
import EventSieve.Token.Scan

/-!
# Reading expressions

The text is cut into tokens, and the tokens are assembled to a tree. Each opening parenthesis starts a level of
operands and connectives; its closing parenthesis makes one operand of it for the level around. A level is
folded from the right, so there is no precedence and `A && B || C` is `A && (B || C)`.

* `Level`: the operands and connectives of one level; `Level.fold` folds them.
* `Assembly`: the open levels after some tokens, and `Assembly.step`, one more token.
* `Expr.ofTokens`: the tree of a list of tokens.
* `Expr.read`: the tree that a text spells. A blank text is refused first, then a text that cannot
  be cut into tokens, then tokens that make no tree.
* `Expr.isValid`: whether a text is a filter expression.
-/

namespace EventSieve

/-- The operands and connectives of one level of parentheses, in order. -/
structure Level where
  operands : Array Expr
  connectives : Array Connective

namespace Level

/-- A level of nothing. -/
def empty : Level := ⟨#[], #[]⟩

/-- Whether the next thing in a level has to be an operand. -/
def wantsOperand (l : Level) : Bool := l.operands.size == l.connectives.size

/-- A level with one more operand. -/
def addOperand : Level → Expr → Level
  | ⟨operands, connectives⟩, e => ⟨operands.push e, connectives⟩

/-- A level with one more connective. -/
def addConnective : Level → Connective → Level
  | ⟨operands, connectives⟩, k => ⟨operands, connectives.push k⟩

/-- Joins a last operand with the connectives and operands before it, last first. -/
def joinBefore (last : Expr) (before : List (Connective × Expr)) : Expr :=
  before.foldl (fun right (k, left) => .join k left right) last

/-- The tree of a complete level; `parenthesized` tells a level in parentheses from a whole
expression. -/
def fold (l : Level) (parenthesized : Bool) : Except ExprError Expr :=
  if l.wantsOperand then
    match l.connectives.back? with
    | some k => .error (.noRightOperand k)
    | none => .error (if parenthesized then .emptyParentheses else .noOperand)
  else
    match l.operands.toList.reverse with
    | [] => .error .emptyParentheses
    | last :: before => .ok (joinBefore last (l.connectives.toList.reverse.zip before))

end Level

/-- The level that is being filled, and the levels around it, innermost first. -/
structure Assembly where
  current : Level
  enclosing : List Level

namespace Assembly

/-- Before the first token. -/
def start : Assembly := ⟨.empty, []⟩

/-- One more token. -/
def step : Assembly → Token → Except ExprError Assembly
  | ⟨current, enclosing⟩, .clause text =>
    if current.wantsOperand then
      match Clause.read text with
      | .ok c => .ok ⟨current.addOperand (.clause c), enclosing⟩
      | .error e => .error e
    else .error (.noConnective (.clause text))
  | ⟨current, enclosing⟩, .opening =>
    if current.wantsOperand then .ok ⟨.empty, current :: enclosing⟩
    else .error (.noConnective .opening)
  | ⟨_, []⟩, .closing => .error (.unbalanced 0)
  | ⟨current, outer :: enclosing⟩, .closing =>
    match current.fold true with
    | .ok e => .ok ⟨outer.addOperand e, enclosing⟩
    | .error e => .error e
  | ⟨current, enclosing⟩, .connective k =>
    if current.wantsOperand then .error (.noLeftOperand k)
    else .ok ⟨current.addConnective k, enclosing⟩

/-- The tree of everything assembled, once the tokens have ended. -/
def result (a : Assembly) : Except ExprError Expr :=
  if a.enclosing.isEmpty then a.current.fold false else .error (.unbalanced 0)

end Assembly

/-- The tree of a list of tokens. -/
def Expr.ofTokens (tokens : List Token) : Except ExprError Expr := do
  let a ← tokens.foldlM Assembly.step .start
  a.result

namespace Expr

/-- The tree that a list of characters spells. -/
def readChars (text : List Char) : Except ExprError Expr :=
  if (Text.trim text).isEmpty then .error .blank
  else do ofTokens (← Token.scan text)

/-- The tree that a text spells. -/
def read (text : String) : Except ExprError Expr := readChars text.toList

/-- Whether a text is a filter expression. -/
def isValid (text : String) : Bool := (read text).isOk

end Expr

end EventSieve
