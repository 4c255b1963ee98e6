import EventSieve.Proofs.Expr.Reader
import EventSieve.Proofs.Expr.Verdict
import EventSieve.Sieve.Basic

/-!
# Putting filters together as texts

* `inParentheses`: a text in any number of pairs of parentheses.
* `ofText_composed`: **texts joined by a connective, the first one in parentheses, make the sieve of
  the joined trees, whose verdict combines the verdicts of the two.**
-/

namespace EventSieve

/-- A text in `n` pairs of parentheses. -/
def inParentheses (text : String) : Nat → String
  | 0 => text
  | n + 1 => "(" ++ inParentheses text n ++ ")"

variable {text text₁ text₂ : String} {e left right : Expr} {s s₁ s₂ : Sieve}

namespace Expr

theorem Reads.enclosed (h : Reads .level text.toList e) :
    Reads .operand ("(" ++ text ++ ")").toList e := by
  have htext : ("(" ++ text ++ ")").toList = '(' :: text.toList ++ [')'] := by simp
  rw [htext]
  exact h.parenthesized

/-- **Parentheses around a text change nothing**, however many there are. -/
theorem read_inParentheses (h : read text = .ok e) (n : Nat) :
    read (inParentheses text n) = .ok e := by
  induction n with
  | zero => exact h
  | succ n ih => exact read_eq_ok_iff.2 (read_eq_ok_iff.1 ih).enclosed.toLevel

/-- **A text in parentheses, a connective, and a text**: the second one may stand in parentheses of
its own or not. -/
theorem read_joined (k : Connective) (hl : read text₁ = .ok left) (hr : read text₂ = .ok right) :
    read ("(" ++ text₁ ++ ") " ++ k.spelling ++ " " ++ text₂) = .ok (.join k left right) := by
  have htext : ("(" ++ text₁ ++ ") " ++ k.spelling ++ " " ++ text₂).toList =
      ("(" ++ text₁ ++ ")").toList ++ ' ' :: k.char :: k.char :: ' ' :: text₂.toList := by
    simp [k.spelling_toList]
  rw [read_eq_ok_iff, htext]
  exact (read_eq_ok_iff.1 hl).enclosed.join k (read_eq_ok_iff.1 hr)

end Expr

namespace Sieve

/-- A sieve keeps its text, and its tree is what the text is read as. -/
theorem ofText_eq_ok_iff : ofText text = .ok s ↔ s.text = text ∧ Expr.read text = .ok s.root := by
  obtain ⟨t, root⟩ := s
  unfold ofText
  split
  · next e he => simp [he, eq_comm]
  · next x he => simp [he]

/-- **Filters can be put together as texts.** Of two texts that are filters, the first can be put in
any number of parentheses; and joined by a connective, the first one in parentheses and the second
one in parentheses or not, they are the filter of the joined trees, whose verdict on every event
is the conjunction or disjunction of their verdicts. -/
theorem ofText_composed (h₁ : ofText text₁ = .ok s₁) (h₂ : ofText text₂ = .ok s₂) :
    (∀ n, ofText (inParentheses text₁ n) = .ok ⟨inParentheses text₁ n, s₁.root⟩) ∧
    ∀ k : Connective, ∀ text ∈ ["(" ++ text₁ ++ ") " ++ k.spelling ++ " (" ++ text₂ ++ ")",
        "(" ++ text₁ ++ ") " ++ k.spelling ++ " " ++ text₂],
      ofText text = .ok ⟨text, .join k s₁.root s₂.root⟩ ∧
      ∀ {ε : Type} [EventLike ε] (event : ε), (⟨text, .join k s₁.root s₂.root⟩ : Sieve).accepts event =
        k.combine (s₁.accepts event) (s₂.accepts event) := by
  have hl := (ofText_eq_ok_iff.1 h₁).2
  have hr := (ofText_eq_ok_iff.1 h₂).2
  refine ⟨fun n => ofText_eq_ok_iff.2 ⟨rfl, Expr.read_inParentheses hl n⟩, fun k text ht => ?_⟩
  refine ⟨ofText_eq_ok_iff.2 ⟨rfl, ?_⟩, fun event => Expr.holdsOf_join k _ _ event⟩
  rcases List.mem_pair.1 ht with rfl | rfl
  · have htext : "(" ++ text₁ ++ ") " ++ k.spelling ++ " (" ++ text₂ ++ ")" =
        "(" ++ text₁ ++ ") " ++ k.spelling ++ " " ++ inParentheses text₂ 1 := by
      apply String.toList_injective
      simp [inParentheses]
    rw [htext]
    exact Expr.read_joined k hl (Expr.read_inParentheses hr 1)
  · exact Expr.read_joined k hl hr

/-- Quotes keep the parenthesis and the connective of a literal from being read as such. -/
theorem ofText_composed_quoted :
    let s₁ : Sieve := ⟨"a == \"x) && y\"", .clause ⟨none, "a", .equal, .ofText "x) && y"⟩⟩
    let s₂ : Sieve := ⟨"\"E(\"::c < 3", .clause ⟨some "\"E(\"", "c", .less, .ofText "3"⟩⟩
    let text := "(" ++ s₁.text ++ ") " ++ Connective.and.spelling ++ " " ++ s₂.text
    ofText s₁.text = .ok s₁ ∧ ofText s₂.text = .ok s₂ ∧
    ofText (inParentheses s₁.text 2) = .ok ⟨inParentheses s₁.text 2, s₁.root⟩ ∧
    ofText text = .ok ⟨text, .join .and s₁.root s₂.root⟩ := by
  intro s₁ s₂ text
  have h₁ : ofText "a == \"x) && y\"" = .ok s₁ := ofText_eq_ok_iff.2 ⟨rfl, by rfl⟩
  have h₂ : ofText "\"E(\"::c < 3" = .ok s₂ := ofText_eq_ok_iff.2 ⟨rfl, by rfl⟩
  obtain ⟨hpar, hjoin⟩ := ofText_composed h₁ h₂
  exact ⟨h₁, h₂, hpar 2, (hjoin .and text (by simp [text, s₁, s₂])).1⟩

end Sieve

end EventSieve
