import EventSieve.Proofs.Expr.Equality
import EventSieve.Proofs.Sieve.Composition

/-!
# Copies and equality

* `Expr.runCopy_visit`, by induction on the tree: **a visited tree ends up on top of what is built**, so
  that every connective finds its two operands there.
* `Sieve.equals_iff_of_ofText`: sieves made of texts are equal when the texts are.
* `Sieve.copy_and_equality`: **copying gives the same tree, and equality tells exactly the different ones
  apart.**
-/

namespace EventSieve

namespace Expr

/-- **Visiting a tree puts a copy of it on top of what is built**, whatever is built already and
whatever is still to be done. -/
theorem runCopy_visit (e : Expr) (built : List Expr) (steps : List CopyStep) :
    runCopy built (.visit e :: steps) = runCopy (e :: built) steps := by
  induction e generalizing built steps with
  | clause c => rw [runCopy]
  | join k left right ihl ihr =>
    -- the connective comes after both operands, with the right one on top
    rw [runCopy, ihl, ihr, runCopy]

/-- A copy is the tree itself; no connective is left without two operands, and a tree is built. -/
theorem copy?_eq (e : Expr) : e.copy? = some e := by
  rw [copy?, runCopy_visit, runCopy, List.head?_cons]

end Expr

namespace Sieve

variable {text text' : String} {s s' : Sieve}

/-- A text makes one sieve, which keeps the text. -/
theorem equals_iff_of_ofText (h : ofText text = .ok s) (h' : ofText text' = .ok s') :
    (s == s') = true ↔ text = text' := by
  obtain ⟨htext, hroot⟩ := ofText_eq_ok_iff.1 h
  obtain ⟨htext', hroot'⟩ := ofText_eq_ok_iff.1 h'
  have hequals : (s == s') = (s.text == s'.text && s.root == s'.root) := rfl
  rw [hequals, Bool.and_eq_true_iff, beq_iff_eq, beq_iff_eq, htext, htext']
  refine ⟨And.left, fun heq => ⟨heq, ?_⟩⟩
  rw [heq, hroot'] at hroot
  exact (Except.ok.inj hroot).symm

/-- **Copying and comparing trees go wrong for none.** The copy of a tree is that tree, without a
connective that lacks an operand on the way; and two trees are equal exactly when they have the same
shape, connectives and clauses, which is an equivalence because no literal's number is a NaN. So two
sieves made of texts are equal exactly when the texts are. -/
theorem copy_and_equality :
    (∀ e : Expr, e.copy? = some e) ∧
    (∀ a b : Expr, (a == b) = true ↔ a = b) ∧
    (Equivalence fun a b : Expr => (a == b) = true) ∧
    (∀ (l : Literal) (x : Binary64), l.number = some (.float x) → x.isNaN = false) ∧
    ∀ {text text' : String} {s s' : Sieve}, ofText text = .ok s → ofText text' = .ok s' →
      ((s == s') = true ↔ text = text') := by
  refine ⟨Expr.copy?_eq, fun a b => beq_iff_eq, ⟨?_, ?_, ?_⟩, fun l x hx => ?_, equals_iff_of_ofText⟩
  · intro a
    exact beq_self_eq_true a
  · intro a b h
    rwa [BEq.comm] at h
  · intro a b c h h'
    exact BEq.trans h h'
  · rw [l.number_eq] at hx
    exact Number.isNaN_of_read? hx

/-- Trees of one text and of another spelling of it: the roots are equal and the sieves are not, and a
literal with a double is among them. -/
theorem copy_and_equality_spellings :
    let clause : Clause := ⟨none, "a", .less, .ofText "1.5"⟩
    let s : Sieve := ⟨"a < 1.5", .clause clause⟩
    let s' : Sieve := ⟨"(a<1.5)", .clause clause⟩
    (∃ x, clause.literal.number = some (.float x) ∧ x.isNaN = false) ∧
    ofText "a < 1.5" = .ok s ∧ ofText "(a<1.5)" = .ok s' ∧
    (s.root == s'.root) = true ∧ (s == s') = false := by
  intro clause s s'
  have h : ofText "a < 1.5" = .ok s := ofText_eq_ok_iff.2 ⟨rfl, by rfl⟩
  have h' : ofText "(a<1.5)" = .ok s' := ofText_eq_ok_iff.2 ⟨rfl, by rfl⟩
  obtain ⟨-, hequals, -, hnan, hsieves⟩ := copy_and_equality
  have hdifferent : ¬(s == s') = true := fun heq => absurd ((hsieves h h').1 heq) (by decide)
  have hnumber : clause.literal.number = some (.float (Binary64.ofDecimal false ⟨15, -1⟩)) := by
    decide +kernel
  exact ⟨⟨_, hnumber, hnan clause.literal _ hnumber⟩, h, h', (hequals _ _).2 rfl, Bool.eq_false_iff.2 hdifferent⟩

end Sieve

end EventSieve
