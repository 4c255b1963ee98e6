import EventSieve.Event.Fields
import EventSieve.Proofs.Gate.Definitions

/-!
# The verdict of a gate

* `Gate.Admits`: the rule of a list of definitions, in which their order has no part.
* `Gate.scan_eq_true_iff`: **what is left to be scanned decides together with what was seen.**
* `Gate.accepts_iff_admits`, `Gate.matching_eq`: a gate answers by its definitions.
* `Gate.accepts_ofDefinitions`: **a gate follows the rule of its definitions, in whatever order they
  stand.**
-/

namespace EventSieve

variable {ε : Type} [EventLike ε]

/-- Whether the expression of a definition holds of an event; one that is refused holds of none. -/
def Definition.holdsOf (d : Definition) (event : ε) : Bool :=
  match Sieve.ofText d.expression with
  | .ok s => s.accepts event
  | .error _ => false

variable {f : Filter} {d : Definition}

theorem Filter.MadeOf.holdsOf_eq (h : f.MadeOf d) (event : ε) : f.holdsOf event = d.holdsOf event := by
  have hs : Sieve.ofText d.expression = .ok f.sieve := Sieve.ofText_eq_ok_iff.2 ⟨h.text, h.root⟩
  rw [Definition.holdsOf, hs]
  rfl

/-- Of two lists that correspond item by item, one has an item of some kind if the other has. -/
theorem exists_mem_iff_of_forall₂ {α β : Type} {R : α → β → Prop} {P : α → Prop} {Q : β → Prop}
    (hR : ∀ a b, R a b → (P a ↔ Q b)) {as : List α} {bs : List β} (h : List.Forall₂ R as bs) :
    (∃ a ∈ as, P a) ↔ ∃ b ∈ bs, Q b := by
  induction h with
  | nil => exact iff_of_false (fun ⟨_, ha, _⟩ => nomatch ha) fun ⟨_, hb, _⟩ => nomatch hb
  | cons hab _ ih => rw [List.exists_mem_cons_iff, List.exists_mem_cons_iff, hR _ _ hab, ih]

namespace Gate

variable {ds ds' : List Definition} {gate : Gate}

/-- The rule of definitions: if one that is enabled lets events in, one of those holds of the event;
and none that is enabled and keeps events out does. -/
def Admits (ds : List Definition) (event : ε) : Prop :=
  ((¬∃ d ∈ ds, d.enabled = true ∧ d.mode = .including) ∨
    ∃ d ∈ ds, d.enabled = true ∧ d.mode = .including ∧ d.holdsOf event = true) ∧
  ¬∃ d ∈ ds, d.enabled = true ∧ d.mode = .excluding ∧ d.holdsOf event = true

instance (ds : List Definition) (event : ε) : Decidable (Admits ds event) :=
  inferInstanceAs (Decidable ((_ ∨ _) ∧ ¬_))

theorem admits_perm (h : ds'.Perm ds) (event : ε) : Admits ds' event ↔ Admits ds event := by
  unfold Admits
  simp only [h.mem_iff]

/-- **The filters left to be scanned decide together with what was seen** of those before them: whether
one lets events in, and whether such a one held. -/
theorem scan_eq_true_iff (event : ε) (filters : List Filter) (sought found : Bool) :
    scan event sought found filters = true ↔
      ((sought = false ∧ ¬∃ f ∈ filters, f.mode = .including) ∨ found = true ∨
        ∃ f ∈ filters, f.mode = .including ∧ f.holdsOf event = true) ∧
      ¬∃ f ∈ filters, f.mode = .excluding ∧ f.holdsOf event = true := by
  induction filters generalizing sought found with
  | nil => simp [scan]
  | cons f filters ih =>
    rw [scan]
    simp only [List.exists_mem_cons_iff]
    cases hmode : f.mode with
    | excluding =>
      cases hf : f.holdsOf event with
      | true => simp
      | false => simp [ih]
    | including =>
      -- the flags after this filter: one was sought, and one found if this or an earlier one holds
      rw [ih]
      cases hf : f.holdsOf event with
      | true => simp
      | false => simp

section

variable (h : ofDefinitions ds = .ok gate)
include h

/-- A gate has a filter of some kind if there is an enabled definition of that kind. -/
theorem exists_filter_iff {P : Filter → Prop} {Q : Definition → Prop}
    (hPQ : ∀ f d, f.MadeOf d → (P f ↔ Q d)) :
    (∃ f ∈ gate.filters, P f) ↔ ∃ d ∈ ds, d.enabled = true ∧ Q d := by
  rw [exists_mem_iff_of_forall₂ hPQ (usable_of_ofDefinitions h).2]
  simp only [List.mem_filter, and_assoc]

/-- **A gate accepts the events that its definitions admit.** -/
theorem accepts_iff_admits (event : ε) : gate.accepts event = true ↔ Admits ds event := by
  have hmode : ∀ m f d, Filter.MadeOf f d → (f.mode = m ↔ d.mode = m) :=
    fun m f d hf => by rw [hf.mode]
  have hholds : ∀ m f d, Filter.MadeOf f d →
      (f.mode = m ∧ f.holdsOf event = true ↔ d.mode = m ∧ d.holdsOf event = true) :=
    fun m f d hf => by rw [hf.mode, hf.holdsOf_eq]
  rw [accepts, scan_eq_true_iff, exists_filter_iff h (hmode .including),
    exists_filter_iff h (hholds .including), exists_filter_iff h (hholds .excluding)]
  simp only [true_and, Bool.false_eq_true, false_or, Admits]

/-- **The matching names are those of the enabled definitions whose expressions hold**, in their
order. -/
theorem matching_eq (event : ε) : gate.matching event =
    (ds.filter fun d => d.enabled && d.holdsOf event).map Definition.name := by
  -- filters and definitions stay in step when both are reduced to those that hold
  have hsame : List.Forall₂ Filter.MadeOf (gate.filters.filter fun f => f.holdsOf event)
      ((ds.filter Definition.enabled).filter fun d => d.holdsOf event) :=
    List.rel_filter (fun f d hf => iff_of_eq (congrArg (· = true) (hf.holdsOf_eq event)))
      (usable_of_ofDefinitions h).2
  have hnames := List.rel_map (fun f d (hf : Filter.MadeOf f d) => hf.name) hsame
  rw [List.forall₂_eq_eq_eq] at hnames
  rw [matching, hnames, List.filter_filter]
  simp only [Bool.and_comm]

end

/-- **A gate follows the rule of its definitions.** It accepts an event if an enabled definition that
lets events in holds of it, or there is none of this kind, and no enabled one that keeps events out holds
of it; and the matching names are those of the enabled definitions that hold, in their order. So in any
other order the definitions make a gate as well, with the same verdict on every event and the same
matching names up to their order. -/
theorem accepts_ofDefinitions (h : ofDefinitions ds = .ok gate) :
    (∀ {ε : Type} [EventLike ε] (event : ε),
      (gate.accepts event = true ↔ Admits ds event) ∧
      gate.matching event = (ds.filter fun d => d.enabled && d.holdsOf event).map Definition.name) ∧
    ∀ ds', ds'.Perm ds → ∃ gate', ofDefinitions ds' = .ok gate' ∧
      ∀ {ε : Type} [EventLike ε] (event : ε), gate'.accepts event = gate.accepts event ∧
        (gate'.matching event).Perm (gate.matching event) := by
  refine ⟨fun event => ⟨accepts_iff_admits h event, matching_eq h event⟩, fun ds' hp => ?_⟩
  obtain ⟨gate', h'⟩ := ((usable_of_ofDefinitions h).1.perm hp).exists_gate
  refine ⟨gate', h', fun event => ⟨?_, ?_⟩⟩
  · rw [Bool.eq_iff_iff, accepts_iff_admits h', accepts_iff_admits h]
    exact admits_perm hp event
  · rw [matching_eq h', matching_eq h]
    exact (hp.filter _).map _

/-- Two definitions that let events in, one that keeps them out and one that is not used, also the
other way round. -/
theorem accepts_ofDefinitions_reversed :
    let ds : List Definition := [{ name := "a", expression := "X == 1" },
      { name := "b", expression := "Y == 2", mode := .excluding },
      { name := "c", expression := "X <", enabled := false }, { name := "d", expression := "Y < 2" }]
    let event (y : Int64) := TypedRow.ofFields "E" [("X", some (.int 1)), ("Y", some (.int y))]
    ∃ gate gate', ofDefinitions ds = .ok gate ∧ ofDefinitions ds.reverse = .ok gate' ∧
      gate.accepts (event 1) = true ∧ gate'.accepts (event 1) = true ∧
      gate.matching (event 1) = ["a", "d"] ∧ gate.accepts (event 2) = false ∧
      gate'.accepts (event 2) = false ∧ gate.matching (event 2) = ["a", "b"] := by
  intro ds event
  have husable : Usable ds := ⟨by decide, by decide +kernel⟩
  obtain ⟨gate, h⟩ := husable.exists_gate
  obtain ⟨hgate, hperm⟩ := accepts_ofDefinitions h
  obtain ⟨gate', h', hsame⟩ := hperm ds.reverse (List.reverse_perm ds)
  have h₁ : gate.accepts (event 1) = true := (hgate (event 1)).1.2 (by decide +kernel)
  have h₂ : gate.accepts (event 2) = false := by
    rw [← Bool.not_eq_true, (hgate (event 2)).1]
    decide +kernel
  refine ⟨gate, gate', h, h', h₁, (hsame (event 1)).1.trans h₁, ?_, h₂, (hsame (event 2)).1.trans h₂, ?_⟩
  · exact (hgate (event 1)).2.trans (by decide +kernel)
  · exact (hgate (event 2)).2.trans (by decide +kernel)

end Gate

end EventSieve
