import Mathlib.Data.List.Basic
import EventSieve.Proofs.Expr.Verdict

/-!
# The leaves that a check visits

Leaves are counted from left to right, so that two leaves with one clause are told apart: leaf `i` of
a tree has the value `v i`.

* `value`, `visits`: the value of a tree, and the leaves that a short-circuit evaluation looks at.
* `value_of_agree`: **leaves that are skipped cannot change the value.**
* `PartAt.exists_value`: **before a leaf is visited, the value of every operand around it is open.**
* `check_visits`: what a check with a stack of waiting operands visits.
-/

namespace EventSieve.Expr

/-- The values of the leaves from leaf `n` on. -/
def shift (n : Nat) (v : Nat → Bool) : Nat → Bool := fun i => v (n + i)

/-- The values of `n` leaves, followed by those of further leaves. -/
def paste (n : Nat) (v w : Nat → Bool) : Nat → Bool := fun i => if i < n then v i else w (i - n)

/-- The value of a tree, from the values of its leaves. -/
def value (v : Nat → Bool) : Expr → Bool
  | clause _ => v 0
  | join k left right => k.combine (left.value v) (right.value (shift left.leaves.length v))

/-- The leaves that are visited, in order. -/
def visits (v : Nat → Bool) : Expr → List Nat
  | clause _ => [0]
  | join k left right => left.visits v ++
    if k.needsRight (left.value v) then
      (right.visits (shift left.leaves.length v)).map (left.leaves.length + ·)
    else []

/-- `PartAt s i e`: the tree `s` is `e` or an operand somewhere in it, and its first leaf is leaf `i`
of `e`. -/
inductive PartAt (s : Expr) : Nat → Expr → Prop
  | whole : PartAt s 0 s
  | left {left right : Expr} {i : Nat} {k : Connective} : PartAt s i left →
      PartAt s i (join k left right)
  | right {left right : Expr} {i : Nat} {k : Connective} : PartAt s i right →
      PartAt s (left.leaves.length + i) (join k left right)

variable {v w : Nat → Bool} {e s : Expr} {i j : Nat}

/-- What a connective visits: the leaves of its left operand, and those of its right operand if the
left one leaves the value open. -/
theorem mem_visits_join {k : Connective} {left right : Expr} :
    j ∈ (join k left right).visits v ↔ j ∈ left.visits v ∨
      k.needsRight (left.value v) = true ∧
        ∃ i ∈ right.visits (shift left.leaves.length v), j = left.leaves.length + i := by
  rw [visits, List.mem_append]
  split
  · next h => simp [h, eq_comm]
  · next h => simp [h]

theorem lt_of_mem_visits (h : j ∈ e.visits v) : j < e.leaves.length := by
  induction e generalizing v j with
  | clause c =>
    rw [List.mem_singleton.1 h]
    exact Nat.zero_lt_one
  | join k left right ihl ihr =>
    rw [leaves, List.length_append]
    rcases mem_visits_join.1 h with h | ⟨-, i, hi, rfl⟩
    · have := ihl h
      omega
    · have := ihr hi
      omega

/-- A leaf of the left operand is visited for that operand. -/
theorem mem_visits_left {k : Connective} {left right : Expr}
    (h : j ∈ (join k left right).visits v) (hj : j < left.leaves.length) : j ∈ left.visits v := by
  rcases mem_visits_join.1 h with h | ⟨-, i, hi, rfl⟩
  · exact h
  · omega

/-- A leaf of the right operand is visited for that operand, which is needed. -/
theorem mem_visits_right {k : Connective} {left right : Expr}
    (h : left.leaves.length + i ∈ (join k left right).visits v) :
    k.needsRight (left.value v) = true ∧ i ∈ right.visits (shift left.leaves.length v) := by
  rcases mem_visits_join.1 h with h | ⟨hk, j, hj, hij⟩
  · have := lt_of_mem_visits h
    omega
  · obtain rfl : i = j := by omega
    exact ⟨hk, hj⟩

/-- **Leaves are visited from left to right**, none twice. -/
theorem visits_pairwise (v : Nat → Bool) (e : Expr) : (e.visits v).Pairwise (· < ·) := by
  induction e generalizing v with
  | clause c => exact List.pairwise_singleton _ _
  | join k left right ihl ihr =>
    rw [visits]
    refine List.pairwise_append.2 ⟨ihl v, ?_, ?_⟩
    · split
      · exact List.pairwise_map.2 ((ihr _).imp fun h => Nat.add_lt_add_left h _)
      · exact List.Pairwise.nil
    · intro i hi j hj
      have := lt_of_mem_visits hi
      split at hj
      · obtain ⟨j, -, rfl⟩ := List.mem_map.1 hj
        omega
      · exact absurd hj List.not_mem_nil

/-- The value depends on the leaves of the tree only. -/
theorem value_congr (h : ∀ i < e.leaves.length, v i = w i) : e.value v = e.value w := by
  induction e generalizing v w with
  | clause c => exact h 0 Nat.zero_lt_one
  | join k left right ihl ihr =>
    rw [leaves, List.length_append] at h
    have hl : left.value v = left.value w := ihl fun i hi => h i (by omega)
    have hr : right.value (shift left.leaves.length v) = right.value (shift left.leaves.length w) :=
      ihr fun i hi => h (left.leaves.length + i) (by omega)
    rw [value, value, hl, hr]

/-- Leaves that all have one value give it to the tree. -/
theorem value_const (b : Bool) (e : Expr) : e.value (fun _ => b) = b := by
  induction e with
  | clause c => rfl
  | join k left right ihl ihr =>
    rw [value, ihl, show shift left.leaves.length (fun _ => b) = fun _ => b from rfl, ihr]
    exact k.combine_self b

/-- **Leaves that are not visited cannot change the value.** -/
theorem value_of_agree (h : ∀ i ∈ e.visits v, w i = v i) : e.value w = e.value v := by
  induction e generalizing v w with
  | clause c => exact h 0 (List.mem_singleton_self 0)
  | join k left right ihl ihr =>
    rw [value, value, ihl fun i hi => h i (mem_visits_join.2 (.inl hi))]
    cases hk : k.needsRight (left.value v) with
    | true =>
      have hr : right.value (shift left.leaves.length w) = right.value (shift left.leaves.length v) :=
        ihr fun i hi => h _ (mem_visits_join.2 (.inr ⟨hk, i, hi, rfl⟩))
      rw [hr]
    | false => rw [k.combine_of_not_needsRight hk, k.combine_of_not_needsRight hk]

/-- What is visited depends on the leaves of the tree only. -/
theorem visits_congr (h : ∀ i < e.leaves.length, v i = w i) : e.visits v = e.visits w := by
  induction e generalizing v w with
  | clause c => rfl
  | join k left right ihl ihr =>
    rw [leaves, List.length_append] at h
    have hv : left.value v = left.value w := value_congr fun i hi => h i (by omega)
    have hl : left.visits v = left.visits w := ihl fun i hi => h i (by omega)
    have hr : right.visits (shift left.leaves.length v) = right.visits (shift left.leaves.length w) :=
      ihr fun i hi => h (left.leaves.length + i) (by omega)
    rw [visits, visits, hv, hl, hr]

theorem paste_of_lt {n : Nat} (h : i < n) : paste n v w i = v i := if_pos h

theorem paste_add (n i : Nat) : paste n v w (n + i) = w i := by
  rw [paste, if_neg (by omega), Nat.add_sub_cancel_left]

theorem shift_paste (n : Nat) : shift n (paste n v w) = w := funext fun i => paste_add n i

/-- The values of the leaves of two operands can be chosen apart. -/
theorem value_join_paste (k : Connective) (left right : Expr) :
    (join k left right).value (paste left.leaves.length v w) =
      k.combine (left.value v) (right.value w) := by
  rw [value, shift_paste, value_congr fun i hi => paste_of_lt hi]

/-- **Before a leaf is visited, the value of the whole tree is open**: the leaves visited before it
leave both values possible. -/
theorem exists_value_of_mem_visits (h : j ∈ e.visits v) (b : Bool) :
    ∃ w, (∀ i ∈ e.visits v, i < j → w i = v i) ∧ e.value w = b := by
  induction e generalizing v j with
  | clause c =>
    refine ⟨fun _ => b, fun i hi hij => ?_, rfl⟩
    rw [List.mem_singleton.1 hi, List.mem_singleton.1 h] at hij
    omega
  | join k left right ihl ihr =>
    rcases mem_visits_join.1 h with h | ⟨hk, j, hj, rfl⟩
    · -- the left operand's value is open, and the leaves after it can all have the value wanted
      obtain ⟨w, hw, hb⟩ := ihl h
      have hj := lt_of_mem_visits h
      refine ⟨paste left.leaves.length w fun _ => b, fun i hi hij => ?_, ?_⟩
      · rw [paste_of_lt (by omega)]
        exact hw i (mem_visits_left hi (by omega)) hij
      · rw [value_join_paste, hb, value_const, k.combine_self]
    · -- the left operand leaves the value to the right one, whose value is open
      obtain ⟨w, hw, hb⟩ := ihr hj
      refine ⟨paste left.leaves.length v w, fun i hi hij => ?_, ?_⟩
      · rcases Nat.lt_or_ge i left.leaves.length with hlt | hge
        · exact paste_of_lt hlt
        · obtain ⟨i, rfl⟩ := Nat.exists_eq_add_of_le hge
          rw [paste_add]
          exact hw i (mem_visits_right hi).2 (by omega)
      · rw [value_join_paste, hb, k.combine_of_needsRight hk]

theorem PartAt.le (h : PartAt s i e) : i + s.leaves.length ≤ e.leaves.length := by
  induction h with
  | whole => omega
  | left h ih =>
    rw [leaves, List.length_append]
    omega
  | right h ih =>
    rw [leaves, List.length_append]
    omega

theorem shift_shift (n i : Nat) : shift i (shift n v) = shift (n + i) v := by
  funext m
  simp only [shift, Nat.add_assoc]

/-- The leaves of an operand that are visited are visited for that operand. -/
theorem PartAt.mem_visits (h : PartAt s i e) (hj : i + j ∈ e.visits v)
    (hlt : j < s.leaves.length) : j ∈ s.visits (shift i v) := by
  induction h generalizing v with
  | whole =>
    have hshift : shift 0 v = v := funext fun m => congrArg v (Nat.zero_add m)
    rwa [hshift, ← Nat.zero_add j]
  | left h ih =>
    have := h.le
    exact ih (mem_visits_left hj (by omega))
  | right h ih =>
    rw [Nat.add_assoc] at hj
    rw [← shift_shift]
    exact ih (mem_visits_right hj).2

/-- **Before a leaf is visited, the value of every operand around it is open.** -/
theorem PartAt.exists_value (h : PartAt s i e) (hj : i + j ∈ e.visits v)
    (hlt : j < s.leaves.length) (b : Bool) :
    ∃ w, (∀ m ∈ e.visits v, m < i + j → w m = v m) ∧ s.value (shift i w) = b := by
  obtain ⟨w, hw, hb⟩ := exists_value_of_mem_visits (h.mem_visits hj hlt) b
  -- the operand's leaves are given the values of `w`, those before them keep theirs
  refine ⟨paste i v w, fun m hm hmj => ?_, ?_⟩
  · rcases Nat.lt_or_ge m i with hlt | hge
    · exact paste_of_lt hlt
    · obtain ⟨m, rfl⟩ := Nat.exists_eq_add_of_le hge
      rw [paste_add]
      exact hw m (h.mem_visits hm (by omega)) (by omega)
  · rw [shift_paste]
    exact hb

/-- The values of the leaves of a tree, from those of its clauses. -/
def leafValues (verdict : Clause → Bool) (e : Expr) : Nat → Bool :=
  fun i => e.leaves[i]?.any verdict

/-- The test of a clause that notes which clauses are tested. -/
def logged (verdict : Clause → Bool) (c : Clause) : StateM (List Clause) Bool := do
  modify (· ++ [c])
  return verdict c

variable {verdict : Clause → Bool} {k : Connective} {left right : Expr}

theorem leafValues_left (hi : i < left.leaves.length) :
    leafValues verdict (join k left right) i = leafValues verdict left i := by
  rw [leafValues, leafValues, leaves, List.getElem?_append_left hi]

theorem shift_leafValues : shift left.leaves.length (leafValues verdict (join k left right)) =
    leafValues verdict right := by
  funext i
  rw [shift, leafValues, leafValues, leaves, List.getElem?_append_right (Nat.le_add_right _ _),
    Nat.add_sub_cancel_left]

/-- The value of the leaves' values is the value of the tree. -/
theorem value_leafValues (verdict : Clause → Bool) (e : Expr) :
    e.value (leafValues verdict e) = e.denote verdict := by
  induction e with
  | clause c => rfl
  | join k left right ihl ihr =>
    rw [value, denote, shift_leafValues, ihr, value_congr fun i hi => leafValues_left hi, ihl]

/-- The clauses that are visited in a tree. -/
def visited (verdict : Clause → Bool) (e : Expr) : List Clause :=
  (e.visits (leafValues verdict e)).filterMap (e.leaves[·]?)

theorem visited_join : (join k left right).visited verdict = left.visited verdict ++
    if k.needsRight (left.denote verdict) then right.visited verdict else [] := by
  have hl : (left.visits (leafValues verdict left)).filterMap ((left.leaves ++ right.leaves)[·]?) =
      left.visited verdict :=
    List.filterMap_congr fun i hi => List.getElem?_append_left (lt_of_mem_visits hi)
  unfold visited
  rw [visits, shift_leafValues, value_congr fun i hi => leafValues_left hi,
    visits_congr fun i hi => leafValues_left hi, value_leafValues, List.filterMap_append, leaves, hl]
  congr 1
  split
  · -- leaf `n + i` of the whole is leaf `i` of the right operand
    rw [List.filterMap_map]
    refine List.filterMap_congr fun i _ => ?_
    rw [Function.comp_apply, List.getElem?_append_right (Nat.le_add_right _ _),
      Nat.add_sub_cancel_left]
  · rfl

/-- **An evaluation notes the clauses that it visits**, after those noted before. -/
theorem evalM_logged (verdict : Clause → Bool) (e : Expr) (log : List Clause) :
    (e.evalM (logged verdict)).run log = (e.denote verdict, log ++ e.visited verdict) := by
  induction e generalizing log with
  | clause c => rfl
  | join k left right ihl ihr =>
    rw [evalM, StateT.run_bind, ihl, visited_join, denote]
    change StateT.run (if k.needsRight (left.denote verdict) = true then _ else _) _ = _
    split
    · next h => rw [ihr, k.combine_of_needsRight h, List.append_assoc]
    · next h =>
      rw [k.combine_of_not_needsRight (Bool.not_eq_true _ ▸ h), List.append_nil]
      rfl

/-- **A check with a stack of waiting operands is short-circuit evaluation from left to right**: in
every monad it makes the tests of the recursive evaluation, in the same order. It gives the value of
the tree; it visits each leaf at most once, from left to right; the leaves it skips cannot change
the value; and when it visits a leaf, the value of every operand around it is still open. -/
theorem check_visits (e : Expr) :
    (∀ (m : Type → Type) [Monad m] [LawfulMonad m] (test : Clause → m Bool),
      decideM test (.tree e) [] = e.evalM test) ∧
    (∀ {ε : Type} [EventLike ε] (event : ε), e.holdsOf event = e.denote fun c => c.holdsOf event) ∧
    ∀ verdict : Clause → Bool,
      let v := e.leafValues verdict
      (decideM (logged verdict) (.tree e) []).run [] =
        (e.denote verdict, (e.visits v).filterMap (e.leaves[·]?)) ∧
      (e.visits v).Pairwise (· < ·) ∧
      (∀ i ∈ e.visits v, i < e.leaves.length) ∧
      (∀ w, (∀ i ∈ e.visits v, w i = v i) → e.value w = e.denote verdict) ∧
      ∀ s i j, PartAt s i e → j < s.leaves.length → i + j ∈ e.visits v →
        ∀ b, ∃ w, (∀ n ∈ e.visits v, n < i + j → w n = v n) ∧ s.value (shift i w) = b := by
  refine ⟨fun m _ _ test => decideM_eq_evalM test e, fun event => holdsOf_eq_denote e event,
    fun verdict => ⟨?_, visits_pairwise _ e, fun i hi => lt_of_mem_visits hi, ?_, ?_⟩⟩
  · rw [decideM_eq_evalM, evalM_logged, List.nil_append]
    rfl
  · intro w hw
    rw [value_of_agree hw, value_leafValues]
  · intro s i j hs hj hv
    exact hs.exists_value hv hj

/-- The second of three leaves is skipped: the first one decides the operand that holds them both. -/
theorem check_visits_skipped :
    let c (property : String) : Clause := ⟨none, property, .equal, .ofText "1"⟩
    let e : Expr := .join .or (.join .and (.clause (c "a")) (.clause (c "b"))) (.clause (c "d"))
    let test := logged fun c => c.property == "d"
    (decideM test (.tree e) []).run [] = (true, [c "a", c "d"]) ∧
    decideM test (.tree e) [] = e.evalM test := by
  intro c e test
  exact ⟨((check_visits e).2.2 _).1, (check_visits e).1 (StateM (List Clause)) test⟩

end EventSieve.Expr
