import EventSieve.Expr.Verdict

/-!
# The verdict of a tree

* `Expr.denote`: the value of a tree whose clauses have values.
* `Expr.evalM`: short-circuit evaluation by recursion, from left to right, with the test of a clause
  in any monad.
* `decideM_eq_evalM`: **checking with a stack of waiting operands is that evaluation**, in every monad,
  and so tests the same clauses in the same order.
* `holdsOf_eq_denote`: the verdict on an event is the value of the tree.
* `holdsOf_of_agree`: **a verdict depends on nothing but the event's name and the properties that the tree
  mentions**, and on the name only if a clause asks for one.
-/

namespace EventSieve

/-- The value of a connective. -/
def Connective.combine : Connective → Bool → Bool → Bool
  | and, a, b => a && b
  | or, a, b => a || b

theorem Connective.combine_of_needsRight {k : Connective} {a : Bool} (h : k.needsRight a = true)
    (b : Bool) : k.combine a b = b := by
  cases k with
  | and =>
    obtain rfl : a = true := h
    exact Bool.true_and b
  | or =>
    obtain rfl : a = false := Bool.not_eq_true' a ▸ h
    exact Bool.false_or b

theorem Connective.combine_of_not_needsRight {k : Connective} {a : Bool}
    (h : k.needsRight a = false) (b : Bool) : k.combine a b = a := by
  cases k with
  | and =>
    obtain rfl : a = false := h
    exact Bool.false_and b
  | or =>
    obtain rfl : a = true := Bool.not_eq_false' a ▸ h
    exact Bool.true_or b

theorem Connective.combine_self (k : Connective) (b : Bool) : k.combine b b = b := by
  cases k with
  | and => exact Bool.and_self b
  | or => exact Bool.or_self b

namespace Expr

/-- The value of a tree: each clause has a value, and each connective combines two. -/
def denote (value : Clause → Bool) : Expr → Bool
  | clause c => value c
  | join k left right => k.combine (left.denote value) (right.denote value)

variable {m : Type → Type} [Monad m]

/-- Evaluation by recursion: the right operand only if the left one leaves the result open. -/
def evalM (test : Clause → m Bool) : Expr → m Bool
  | clause c => test c
  | join k left right => do
    let value ← left.evalM test
    if k.needsRight value then right.evalM test else pure value

/-- A check decides the tree in focus and then goes on with its value. -/
theorem decideM_tree [LawfulMonad m] (test : Clause → m Bool) (e : Expr)
    (waiting : List (Connective × Expr)) :
    decideM test (.tree e) waiting =
      e.evalM test >>= fun value => decideM test (.verdict value) waiting := by
  induction e generalizing waiting with
  | clause c =>
    rw [decideM]
    rfl
  | join k left right ihl ihr =>
    rw [decideM, ihl, evalM, bind_assoc]
    -- the left operand's value decides whether the waiting one comes into focus
    congr 1
    funext value
    rw [decideM]
    split
    · exact ihr waiting
    · rw [pure_bind]

/-- **Checking with waiting operands is evaluation by recursion.** -/
theorem decideM_eq_evalM [LawfulMonad m] (test : Clause → m Bool) (e : Expr) :
    decideM test (.tree e) [] = e.evalM test := by
  rw [decideM_tree]
  simp only [decideM, bind_pure]

/-- Evaluation without effects gives the value. -/
theorem evalM_pure [LawfulMonad m] (value : Clause → Bool) (e : Expr) :
    e.evalM (fun c => (pure (value c) : m Bool)) = pure (e.denote value) := by
  induction e with
  | clause c => rfl
  | join k left right ihl ihr =>
    rw [evalM, ihl, pure_bind, denote]
    split
    · next h => rw [ihr, k.combine_of_needsRight h]
    · next h => rw [k.combine_of_not_needsRight (Bool.not_eq_true _ ▸ h)]

/-- **The verdict on an event** is the value of the tree. -/
theorem holdsOf_eq_denote {ε : Type} [EventLike ε] (e : Expr) (event : ε) :
    e.holdsOf event = e.denote fun c => c.holdsOf event := by
  unfold holdsOf
  rw [decideM_eq_evalM, evalM_pure]
  rfl

theorem holdsOf_join {ε : Type} [EventLike ε] (k : Connective) (left right : Expr) (event : ε) :
    (join k left right).holdsOf event = k.combine (left.holdsOf event) (right.holdsOf event) := by
  rw [holdsOf_eq_denote, holdsOf_eq_denote, holdsOf_eq_denote, denote]

/-- Some clause of a tree is about the property of the given name. -/
def Mentions (e : Expr) (key : String) : Prop := ∃ c ∈ e.leaves, c.property = key

instance (e : Expr) (key : String) : Decidable (e.Mentions key) :=
  inferInstanceAs (Decidable (∃ c ∈ e.leaves, c.property = key))

variable {ε ε' : Type} [EventLike ε] [EventLike ε'] {event : ε} {event' : ε'} {v w : Clause → Bool} {e : Expr}

/-- Leaves of the same values give a tree the same value. -/
theorem denote_congr (h : ∀ c ∈ e.leaves, v c = w c) : e.denote v = e.denote w := by
  induction e with
  | clause c => exact h c (List.mem_singleton_self c)
  | join k left right ihl ihr =>
    have hl := ihl fun c hc => h c (List.mem_append_left _ hc)
    have hr := ihr fun c hc => h c (List.mem_append_right _ hc)
    rw [denote, denote, hl, hr]

/-- **A verdict depends on nothing but what the tree mentions**: events get the same one if they agree in
the properties that it mentions, and in their names or else no clause asks for a name. -/
theorem holdsOf_of_agree
    (hproperty : ∀ key, e.Mentions key → EventLike.property? event key = EventLike.property? event' key)
    (hname : EventLike.name event = EventLike.name event' ∨ ∀ c ∈ e.leaves, c.eventName = none) :
    e.holdsOf event = e.holdsOf event' := by
  rw [holdsOf_eq_denote, holdsOf_eq_denote]
  apply denote_congr
  intro c hc
  have hprop := hproperty c.property ⟨c, hc, rfl⟩
  have hadmits : c.admitsName (EventLike.name event) = c.admitsName (EventLike.name event') := by
    rcases hname with hname | hnone
    · rw [hname]
    · unfold Clause.admitsName
      rw [hnone c hc]
      rfl
  unfold Clause.holdsOf
  rw [hprop, hadmits]

/-- Events that agree in name and all properties get one verdict, of whatever kinds they are. -/
theorem holdsOf_congr (hname : EventLike.name event = EventLike.name event')
    (hproperty : ∀ key, EventLike.property? event key = EventLike.property? event' key)
    (e : Expr) : e.holdsOf event = e.holdsOf event' :=
  holdsOf_of_agree (fun key _ => hproperty key) (.inl hname)

end Expr

end EventSieve
