import EventSieve.Expr.Reader
import EventSieve.Proofs.Offset.Clause
import EventSieve.Proofs.Offset.Scan

/-!
# Reading expressions by offsets

The whole reader as it goes through the bytes of a text, with the scan and the clauses read by
offsets. `Expr.reads_by_offsets`: **no text makes it name a part that is not there**, so every text has
an answer, and the answer is that of the reader over characters.
-/

namespace EventSieve

open Text

/-- One more token, whose clause is read by offsets. -/
def Assembly.stepByOffsets (a : Assembly) : Token → Except Stop Assembly
  | .clause text =>
    if a.current.wantsOperand then do
      let c ← Clause.readByOffsets text
      return ⟨a.current.addOperand (.clause c), a.enclosing⟩
    else .error (.refused (.noConnective (.clause text)))
  | token => (a.step token).mapError .refused

theorem Assembly.stepByOffsets_eq (a : Assembly) (token : Token) :
    a.stepByOffsets token = (a.step token).mapError .refused := by
  cases token with
  | clause text =>
    unfold Assembly.stepByOffsets Assembly.step
    dsimp only
    split
    · rw [Clause.readByOffsets_eq]
      cases Clause.read text with
      | error x => rfl
      | ok c => rfl
    · rfl
  | connective k => rfl
  | opening => rfl
  | closing => rfl

namespace Expr

/-- The tree that a text spells, read by offsets. -/
def readByOffsets (text : List Char) : Except Stop Expr :=
  if (trim text).isEmpty then .error (.refused .blank)
  else do
    let tokens ← Token.scanByOffsets text
    let a ← tokens.foldlM Assembly.stepByOffsets .start
    a.result.mapError .refused

theorem readByOffsets_eq (text : List Char) :
    readByOffsets text = (readChars text).mapError .refused := by
  unfold readByOffsets readChars
  split
  · rfl
  · rw [Token.scanByOffsets_eq, mapError_bind]
    congr 1
    funext tokens
    rw [foldlM_mapError Assembly.stepByOffsets_eq, ofTokens, mapError_bind]

/-- **No slice stops the program.** A slice stops it exactly when its offsets are out of order, not
within the text or not on boundaries of characters; and whatever the text, the scan, the clause
reader with its parts and the number reader end with the answers of the readers over characters, which
are values or refusals. -/
theorem reads_by_offsets (text : List Char) :
    (∀ start stop, slice text start stop = .error (.badSlice text start stop) ↔
      ¬ (start ≤ stop ∧ stop ≤ byteLength text ∧ isBoundary text start = true ∧
        isBoundary text stop = true)) ∧
    Token.scanByOffsets text = (Token.scan text).mapError .refused ∧
    (Clause.cutEventNameByOffsets text = match Clause.cutEventName? text with
      | some cut => .ok cut
      | none => .error (.refused (.badEventName (String.ofList text)))) ∧
    Clause.cutOperatorByOffsets text = .ok (Clause.cutOperator? text) ∧
    Clause.readByOffsets text = (Clause.read text).mapError .refused ∧
    Number.readByOffsets text = .ok (Number.read? text) ∧
    readByOffsets text = (readChars text).mapError .refused :=
  ⟨fun _ _ => slice_eq_error_iff, Token.scanByOffsets_eq text, Clause.cutEventNameByOffsets_eq text,
    Clause.cutOperatorByOffsets_eq text, Clause.readByOffsets_eq text, Number.readByOffsets_eq text,
    readByOffsets_eq text⟩

end Expr

end EventSieve
