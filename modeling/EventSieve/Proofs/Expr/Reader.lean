import EventSieve.Expr.Reader
import EventSieve.Proofs.Expr.Assembly
import EventSieve.Proofs.Token.Concat

/-!
# The texts that spell a tree

* `Reads`: the tokens of a text spell a tree.
* `readChars_eq_ok_iff`: **a text is read as the tree that its tokens spell.** In particular the refusal
  of blank texts is no case of its own: a blank text has no tokens, and no tokens spell no tree.
* `Reads.parenthesized`, `Reads.join`: texts put in parentheses or joined by a connective.
-/

namespace EventSieve.Expr

/-- A text whose tokens spell a tree, as one operand or as a level. -/
def Reads (f : Form) (text : List Char) (e : Expr) : Prop :=
  ∃ ts, Token.scan text = .ok ts ∧ Spelled f ts e

variable {f : Form} {text text₁ text₂ : List Char} {ts : List Token} {e left right : Expr}

/-- A blank text has no tokens. -/
theorem scan_of_blank (h : Text.Blank text) : Token.scan text = .ok [] := by
  have hs := not_special_of_blank h
  rw [scan_of_unmarked (unmarked_of_not_special hs) (quotesClosed_of_not_special hs),
    Scan.foundWith_of_blank (Text.blank_reverse.2 h)]

/-- **A text is read as the tree that its tokens spell.** -/
theorem readChars_eq_ok_iff : readChars text = .ok e ↔ Reads .level text e := by
  have hbind : (do ofTokens (← Token.scan text)) = Except.ok e ↔ Reads .level text e := by
    rw [bind_eq_ok]
    simp only [ofTokens_eq_ok_iff, Reads]
  unfold readChars
  split
  · next hb =>
    have hs := scan_of_blank (Text.trim_eq_nil_iff.1 (List.isEmpty_iff.1 hb))
    constructor
    · intro h
      cases h
    · rintro ⟨ts, ht, he⟩
      rw [hs] at ht
      cases ht
      exact absurd rfl he.ne_nil
  · exact hbind

theorem read_eq_ok_iff {text : String} : read text = .ok e ↔ Reads .level text.toList e :=
  readChars_eq_ok_iff

/-- When a text can be cut into tokens, these decide what it spells. -/
theorem reads_iff_of_scan (h : Token.scan text = .ok ts) : Reads f text e ↔ Spelled f ts e := by
  constructor
  · rintro ⟨us, hus, he⟩
    rw [h] at hus
    cases hus
    exact he
  · exact fun he => ⟨ts, h, he⟩

theorem Reads.toLevel (h : Reads f text e) : Reads .level text e := by
  obtain ⟨ts, hts, hs⟩ := h
  exact ⟨ts, hts, hs.toLevel⟩

/-- **A text in parentheses** is an operand that spells the same tree. -/
theorem Reads.parenthesized (h : Reads .level text e) : Reads .operand ('(' :: text ++ [')']) e := by
  obtain ⟨ts, hts, hs⟩ := h
  exact ⟨_, scan_parenthesized hts, .parenthesized hs⟩

/-- **Two texts with a connective between them.** -/
theorem Reads.join (k : Connective) (hl : Reads .operand text₁ left)
    (hr : Reads .level text₂ right) :
    Reads .level (text₁ ++ ' ' :: k.char :: k.char :: ' ' :: text₂) (.join k left right) := by
  obtain ⟨ts, hts, hs⟩ := hl
  obtain ⟨us, hus, hu⟩ := hr
  exact ⟨_, scan_joined k hts hus, .join hs hu⟩

end EventSieve.Expr
