import Mathlib.Algebra.Ring.Nat
import EventSieve.Proofs.Expr.Reader
import EventSieve.Proofs.Expr.Rendering

/-!
# How many leaves a tree has, and how deep they lie

* `Expr.joinsAbove`: by recursion, how many connectives the deepest leaf of a tree has above it.
* `countPending_eq`, `heightPending_eq`: **counting and measuring with a list of pending trees** gives
  what recursion gives.
* `joinsAbove_lt_length_leaves`, `length_leaves_le`: a tree has more leaves than the deepest one has
  connectives above it, and at most twice as many for each of these.
* `walks_structural`: both, with what rendering writes, and the leaves of a tree that was read.
-/

namespace EventSieve.Expr

/-- The greatest number of connectives between a leaf of a tree and its root, the root included. -/
def joinsAbove : Expr → Nat
  | clause _ => 0
  | join _ left right => max left.joinsAbove right.joinsAbove + 1

/-- **The leaves of all pending trees are counted.** -/
theorem countPending_eq (count : Nat) (pending : List Expr) :
    countPending count pending = count + (pending.flatMap leaves).length := by
  fun_induction countPending count pending with
  | case1 count => rfl
  | case2 count c pending ih =>
    rw [ih, List.flatMap_cons, List.length_append, leaves, List.length_singleton, Nat.add_assoc]
  | case3 count k left right pending ih =>
    rw [ih]
    simp only [List.flatMap_cons, leaves, List.length_append]
    omega

/-- **Each pending tree reaches down from its own level.** -/
theorem heightPending_eq (deepest : Nat) (pending : List (Expr × Nat)) :
    heightPending deepest pending =
      pending.foldl (fun deepest p => max deepest (p.2 + p.1.joinsAbove)) deepest := by
  fun_induction heightPending deepest pending with
  | case1 deepest => rfl
  | case2 deepest c level pending ih => exact ih
  | case3 deepest k left right level pending ih =>
    have hdeeper : max (max deepest (level + 1 + right.joinsAbove)) (level + 1 + left.joinsAbove) =
        max deepest (level + (join k left right).joinsAbove) := by
      simp only [joinsAbove]
      omega
    rw [ih, List.foldl_cons, List.foldl_cons, List.foldl_cons, hdeeper]

theorem leafCount_eq_length_leaves (e : Expr) : e.leafCount = e.leaves.length := by
  unfold leafCount
  rw [countPending_eq, List.flatMap_singleton, Nat.zero_add]

theorem height_eq_joinsAbove (e : Expr) : e.height = e.joinsAbove + 1 := by
  unfold height
  rw [heightPending_eq, List.foldl_cons, List.foldl_nil, Nat.zero_max, Nat.add_comm]

theorem joinsAbove_lt_length_leaves (e : Expr) : e.joinsAbove < e.leaves.length := by
  induction e with
  | clause c => exact Nat.zero_lt_one
  | join k left right ihl ihr =>
    simp only [joinsAbove, leaves, List.length_append]
    omega

/-- **Every connective has two operands**, so the leaves at most double with each. -/
theorem length_leaves_le (e : Expr) : e.leaves.length ≤ 2 ^ e.joinsAbove := by
  induction e with
  | clause c => exact Nat.le_refl 1
  | join k left right ihl ihr =>
    have hl : 2 ^ left.joinsAbove ≤ 2 ^ max left.joinsAbove right.joinsAbove :=
      Nat.pow_le_pow_right Nat.two_pos (Nat.le_max_left _ _)
    have hr : 2 ^ right.joinsAbove ≤ 2 ^ max left.joinsAbove right.joinsAbove :=
      Nat.pow_le_pow_right Nat.two_pos (Nat.le_max_right _ _)
    simp only [joinsAbove, leaves, List.length_append, Nat.pow_succ]
    omega

/-- **Walks with pending trees agree with recursion.** A clause is one leaf, one node high and written
as itself; a connective has the leaves of both operands, is one node higher than the higher of them,
and is written between them, in parentheses. So a tree is at most as high as it has leaves, and has at
most `2 ^ (height - 1)` of them. The leaves of a tree that was read are what the clauses among the
tokens of its text are read as, in the order of the text, and none else. -/
theorem walks_structural :
    (∀ c : Clause, (clause c).leafCount = 1 ∧ (clause c).height = 1 ∧ (clause c).render = c.render) ∧
    (∀ k left right, (join k left right).leafCount = left.leafCount + right.leafCount ∧
      (join k left right).height = 1 + max left.height right.height ∧
      (join k left right).render = "(" ++ left.render ++
        (match k with | .and => " && " | .or => " || ") ++ right.render ++ ")") ∧
    (∀ e : Expr, e.leafCount = e.leaves.length) ∧
    (∀ e : Expr, e.height ≤ e.leafCount ∧ e.leafCount ≤ 2 ^ (e.height - 1)) ∧
    (∀ text e, read text = .ok e → ∃ ts, Token.scan text.toList = .ok ts ∧
      e.leafCount = (clauseTexts ts).length ∧
      (clauseTexts ts).map Clause.read = e.leaves.map .ok) := by
  refine ⟨fun c => ⟨?_, ?_, render_clause c⟩, fun k left right => ⟨?_, ?_, ?_⟩,
    leafCount_eq_length_leaves, fun e => ?_, fun text e h => ?_⟩
  · exact leafCount_eq_length_leaves _
  · exact height_eq_joinsAbove _
  · simp only [leafCount_eq_length_leaves, leaves, List.length_append]
  · simp only [height_eq_joinsAbove, joinsAbove]
    omega
  · rw [render_join]
    cases k with
    | and => rfl
    | or => rfl
  · rw [leafCount_eq_length_leaves, height_eq_joinsAbove]
    exact ⟨joinsAbove_lt_length_leaves e, length_leaves_le e⟩
  · obtain ⟨ts, hts, hs⟩ := read_eq_ok_iff.1 h
    have hleaves := hs.leaves_eq
    have hlength := congrArg List.length hleaves
    rw [List.length_map, List.length_map] at hlength
    exact ⟨ts, hts, (leafCount_eq_length_leaves e).trans hlength.symm, hleaves⟩

/-- The second operand is the deeper one; the quotes hold what would be marks. -/
theorem walks_structural_nested :
    let a : Clause := ⟨none, "a", .equal, .ofText "x && y"⟩
    let b : Clause := ⟨some "E", "b", .less, .ofText "2"⟩
    let e : Expr := .join .or (.clause a) (.join .and (.clause b) (.clause a))
    read "a == \"x && y\" || (E::b<2 && a=\"x && y\")" = .ok e ∧
    e.leafCount = 3 ∧ e.leaves = [a, b, a] ∧ e.height = 3 ∧ e.height ≤ e.leafCount ∧
    e.render = "(a == \"x && y\" || (E::b < 2 && a == \"x && y\"))" ∧
    ∃ ts, Token.scan "a == \"x && y\" || (E::b<2 && a=\"x && y\")".toList = .ok ts ∧
      (clauseTexts ts).map Clause.read = [.ok a, .ok b, .ok a] := by
  intro a b e
  have hread : read "a == \"x && y\" || (E::b<2 && a=\"x && y\")" = .ok e := by rfl
  obtain ⟨hclause, hjoin, hcount, hbound, htokens⟩ := walks_structural
  obtain ⟨ts, hts, -, hleaves⟩ := htokens _ e hread
  have hheight : e.height = 3 := by
    simp only [e, (hjoin _ _ _).2.1, (hclause _).2.1]
    rfl
  have ha : a.render = "a == \"x && y\"" := by decide +kernel
  have hb : b.render = "E::b < 2" := by decide +kernel
  refine ⟨hread, hcount e, rfl, hheight, (hbound e).1, ?_, ts, hts, hleaves⟩
  simp only [e, (hjoin _ _ _).2.2, (hclause _).2.2, ha, hb]
  decide +kernel

end EventSieve.Expr
