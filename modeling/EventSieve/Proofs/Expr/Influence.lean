import EventSieve.Proofs.Event.Shapes

/-!
# What can change a verdict

* `Clause.holdsOf_iff`: when a clause holds of an event. A property that an event does not have makes no
  clause hold, whatever its operator.
* `Expr.denote_mono`: a tree holds more often if its leaves do.
* `Expr.holdsOf_monotone`: **an event with more properties passes at least the same trees.**
-/

namespace EventSieve

variable {ε ε' : Type} [EventLike ε] [EventLike ε'] {event : ε} {event' : ε'}

/-- **A clause holds of an event** that has the name it asks for, if any, and has its property, with a
text that its operator relates to its literal. -/
theorem Clause.holdsOf_iff (c : Clause) (event : ε) : c.holdsOf event = true ↔
    (∀ name, c.eventName = some name → name = EventLike.name event) ∧
    ∃ text, EventLike.property? event c.property = some text ∧
      c.operator.relates text c.literal = true := by
  unfold Clause.holdsOf Clause.admitsName
  rw [Bool.and_eq_true, Option.all_eq_true, Option.any_eq_true]
  simp only [beq_iff_eq]

theorem Connective.combine_mono (k : Connective) {a a' b b' : Bool} (ha : a = true → a' = true)
    (hb : b = true → b' = true) (h : k.combine a b = true) : k.combine a' b' = true := by
  cases k with
  | and =>
    have hab : a = true ∧ b = true := by simpa [combine] using h
    simp [combine, ha hab.1, hb hab.2]
  | or =>
    have hab : a = true ∨ b = true := by simpa [combine] using h
    rcases hab with h | h
    · simp [combine, ha h]
    · simp [combine, hb h]

namespace Expr

variable {v w : Clause → Bool} {e : Expr}

/-- **Leaves that hold more often make a tree hold more often**: no connective negates. -/
theorem denote_mono (h : ∀ c ∈ e.leaves, v c = true → w c = true) (hv : e.denote v = true) :
    e.denote w = true := by
  induction e with
  | clause c => exact h c (List.mem_singleton_self c) hv
  | join k left right ihl ihr =>
    have hl := ihl fun c hc => h c (List.mem_append_left _ hc)
    have hr := ihr fun c hc => h c (List.mem_append_right _ hc)
    exact k.combine_mono hl hr hv

/-- A tree none of whose leaves holds does not hold. -/
theorem denote_eq_false (h : ∀ c ∈ e.leaves, v c = false) : e.denote v = false := by
  induction e with
  | clause c => exact h c (List.mem_singleton_self c)
  | join k left right ihl ihr =>
    have hl := ihl fun c hc => h c (List.mem_append_left _ hc)
    have hr := ihr fun c hc => h c (List.mem_append_right _ hc)
    rw [denote, hl, hr, k.combine_self]

/-- A tree none of whose clauses holds of an event does not hold of it. -/
theorem holdsOf_eq_false (h : ∀ c ∈ e.leaves, ¬c.holdsOf event = true) : e.holdsOf event = false := by
  rw [holdsOf_eq_denote]
  exact denote_eq_false fun c hc => Bool.eq_false_iff.2 (h c hc)

/-- **A tree that holds of an event holds of every event of its name that has at least its properties**,
with the same texts, also where the tree asks for inequality. No tree holds of an event that has none of
the properties it mentions, nor does one whose clauses all ask for other names than the event's. -/
theorem holdsOf_monotone (e : Expr) {ε ε' : Type} [EventLike ε] [EventLike ε'] (event : ε)
    (event' : ε') :
    (EventLike.name event = EventLike.name event' →
      (∀ key text, EventLike.property? event key = some text →
        EventLike.property? event' key = some text) →
      e.holdsOf event = true → e.holdsOf event' = true) ∧
    ((∀ key, e.Mentions key → EventLike.property? event key = none) → e.holdsOf event = false) ∧
    ((∀ c ∈ e.leaves, ∃ name, c.eventName = some name ∧ name ≠ EventLike.name event) →
      e.holdsOf event = false) := by
  refine ⟨fun hname hmore hold => ?_, fun hnone => ?_, fun hother => ?_⟩
  · rw [holdsOf_eq_denote] at hold ⊢
    refine denote_mono (fun c hc hclause => ?_) hold
    obtain ⟨hadmits, text, htext, hrel⟩ := (c.holdsOf_iff event).1 hclause
    rw [hname] at hadmits
    exact (c.holdsOf_iff event').2 ⟨hadmits, text, hmore c.property text htext, hrel⟩
  · apply holdsOf_eq_false
    intro c hc hclause
    obtain ⟨-, text, htext, -⟩ := (c.holdsOf_iff event).1 hclause
    rw [hnone c.property ⟨c, hc, rfl⟩] at htext
    cases htext
  · apply holdsOf_eq_false
    intro c hc hclause
    obtain ⟨hadmits, -⟩ := (c.holdsOf_iff event).1 hclause
    obtain ⟨name, hname, hne⟩ := hother c hc
    exact hne (hadmits name hname)

/-- Inequality holds of a property that differs, and goes on to hold when others come to it; it does not
hold of a property that is not there. -/
theorem holdsOf_monotone_notEqual :
    let e : Expr := .join .and (.clause ⟨some "E", "a", .notEqual, .ofText "1"⟩)
      (.join .or (.clause ⟨none, "b", .less, .ofText "3"⟩)
        (.clause ⟨some "F", "c", .contains, .ofText "x"⟩))
    let fields : List Field := [("a", some (.int 2)), ("b", some (.text "-0x1"))]
    let fewer := TypedRow.ofFields "E" fields
    let more := TypedRow.ofFields "E" (("c", some (.text "y")) :: fields)
    let other := TypedRow.ofFields "E" [("d", some (.int 2)), ("b", none)]
    (∀ key text, EventLike.property? fewer key = some text → EventLike.property? more key = some text) ∧
    e.holdsOf fewer = true ∧ e.holdsOf more = true ∧
    (∀ key, e.Mentions key → EventLike.property? other key = none) ∧ e.holdsOf other = false ∧
    (Expr.clause ⟨some "F", "a", .notEqual, .ofText "1"⟩).holdsOf fewer = false := by
  intro e fields fewer more other
  have hmore : ∀ key text, EventLike.property? fewer key = some text →
      EventLike.property? more key = some text := by
    intro key text htext
    have hc : key ≠ "c" := by
      rintro rfl
      exact nomatch htext
    exact (TypedRow.get?_ofFields_cons _ _).trans ((if_neg hc.symm).trans htext)
  have hfewer : e.holdsOf fewer = true := by
    rw [holdsOf_eq_denote]
    decide
  have hother : ∀ key, e.Mentions key → EventLike.property? other key = none := by
    rintro key ⟨c, hc, rfl⟩
    revert c
    decide
  have hname : ∀ c ∈ (Expr.clause ⟨some "F", "a", .notEqual, .ofText "1"⟩).leaves,
      ∃ name, c.eventName = some name ∧ name ≠ EventLike.name fewer := by
    intro c hc
    rw [List.mem_singleton.1 hc]
    exact ⟨"F", rfl, by decide⟩
  exact ⟨hmore, hfewer, (e.holdsOf_monotone fewer more).1 rfl hmore hfewer, hother,
    (e.holdsOf_monotone other other).2.1 hother, (holdsOf_monotone _ fewer fewer).2.2 hname⟩

end Expr

end EventSieve
