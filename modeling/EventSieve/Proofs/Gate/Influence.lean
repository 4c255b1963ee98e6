import EventSieve.Gate.Basic
import EventSieve.Proofs.Expr.Influence

/-!
# What can change the answers of a gate

* `Gate.Mentions`: some clause of some filter is about a property.
* `Gate.scan_congr`, `Gate.matching_congr`: a gate answers by the verdicts of its filters.
* `Gate.answers_of_agree`: **what no filter mentions has no part in an answer**: a verdict depends on the
  name and the mentioned properties, and a property that a gate does not mention can be set at will.
-/

namespace EventSieve.Gate

/-- Some clause of some filter is about the property of the given name. -/
def Mentions (gate : Gate) (key : String) : Prop := ∃ f ∈ gate.filters, f.sieve.root.Mentions key

instance (gate : Gate) (key : String) : Decidable (gate.Mentions key) :=
  inferInstanceAs (Decidable (∃ f ∈ gate.filters, f.sieve.root.Mentions key))

variable {ε ε' : Type} [EventLike ε] [EventLike ε'] {event : ε} {event' : ε'} {gate : Gate}

/-- Whatever was sought and found before, filters of the same verdicts are scanned to the same end. -/
theorem scan_congr {filters : List Filter} (h : ∀ f ∈ filters, f.holdsOf event = f.holdsOf event')
    (sought found : Bool) : scan event sought found filters = scan event' sought found filters := by
  induction filters generalizing sought found with
  | nil => rfl
  | cons f filters ih =>
    have hf := h f List.mem_cons_self
    have hrest := ih fun g hg => h g (List.mem_cons_of_mem f hg)
    simp only [scan, hf, hrest]

theorem accepts_congr (h : ∀ f ∈ gate.filters, f.holdsOf event = f.holdsOf event') :
    gate.accepts event = gate.accepts event' := scan_congr h false false

theorem matching_congr (h : ∀ f ∈ gate.filters, f.holdsOf event = f.holdsOf event') :
    gate.matching event = gate.matching event' := by
  unfold matching
  rw [List.filter_congr h]

/-- **Setting a property that a filter does not mention does not change its verdict**: the record keeps
its name and all its other properties. -/
theorem holdsOf_set {f : Filter} {key : String} (hkey : ¬f.sieve.root.Mentions key) (r : Record)
    (value : String) : f.holdsOf (r.set key value) = f.holdsOf r := by
  refine Expr.holdsOf_of_agree (fun other hother => ?_) (.inl rfl)
  have hne : key ≠ other := by
    rintro rfl
    exact hkey hother
  have hset := Record.get?_set r key value other
  rwa [if_neg hne] at hset

/-- **What no filter mentions has no part in an answer.** Two events that agree in the properties that a
tree mentions get one verdict from it, if they have one name or if no clause of the tree asks for a
name. And setting or overwriting a property of a record that no filter of a gate mentions changes neither
whether the gate accepts the record nor the names of the filters that match it. -/
theorem answers_of_agree :
    (∀ (e : Expr) {ε ε' : Type} [EventLike ε] [EventLike ε'] (event : ε) (event' : ε'),
      (∀ key, e.Mentions key → EventLike.property? event key = EventLike.property? event' key) →
      (EventLike.name event = EventLike.name event' ∨ ∀ c ∈ e.leaves, c.eventName = none) →
      e.holdsOf event = e.holdsOf event') ∧
    ∀ (gate : Gate) (r : Record) (key value : String), ¬gate.Mentions key →
      gate.accepts (r.set key value) = gate.accepts r ∧
      gate.matching (r.set key value) = gate.matching r := by
  constructor
  · intro e ε ε' _ _ event event' hproperty hname
    exact Expr.holdsOf_of_agree hproperty hname
  · intro gate r key value hkey
    have hfilters : ∀ f ∈ gate.filters, f.holdsOf (r.set key value) = f.holdsOf r := by
      intro f hf
      have hf' : ¬f.sieve.root.Mentions key := fun hm => hkey ⟨f, hf, hm⟩
      exact holdsOf_set hf' r value
    exact ⟨accepts_congr hfilters, matching_congr hfilters⟩

/-- A row and a record that agree in one property, under two names, and a gate of two filters with a
property that neither mentions. -/
theorem answers_of_agree_unmentioned :
    let e : Expr := .clause ⟨none, "a", .less, .ofText "1"⟩
    let named : Expr := .join .or e (.clause ⟨some "E", "b", .notEqual, .ofText "x"⟩)
    let row := TypedRow.ofFields "E" [("a", some (.int 0)), ("b", some (.text "y")), ("c", none)]
    let record := (Record.ofName "F").set "a" "0"
    let gate : Gate := ⟨[⟨"f", .including, ⟨"a < 1", e⟩⟩, ⟨"g", .excluding, ⟨"a < 1 || E::b != x", named⟩⟩]⟩
    (∀ key, e.Mentions key → EventLike.property? row key = EventLike.property? record key) ∧
    (∀ c ∈ e.leaves, c.eventName = none) ∧ e.holdsOf row = true ∧ e.holdsOf record = true ∧
    ¬gate.Mentions "c" ∧ gate.matching (record.set "c" "0") = gate.matching record ∧
    gate.accepts ((record.set "c" "0").set "c" "1") = gate.accepts (record.set "c" "0") := by
  intro e named row record gate
  have hagree : ∀ key, e.Mentions key → EventLike.property? row key = EventLike.property? record key := by
    rintro key ⟨c, hc, rfl⟩
    rw [List.mem_singleton.1 hc]
    exact ((Record.get?_set _ _ _ _).trans (if_pos rfl)).symm
  have hnone : ∀ c ∈ e.leaves, c.eventName = none := by
    intro c hc
    rw [List.mem_singleton.1 hc]
  have hrow : e.holdsOf row = true := by
    rw [Expr.holdsOf_eq_denote]
    decide
  have hkey : ¬gate.Mentions "c" := by decide
  exact ⟨hagree, hnone, hrow, (answers_of_agree.1 e row record hagree (.inr hnone)).symm.trans hrow, hkey,
    (answers_of_agree.2 gate record "c" "0" hkey).2,
    (answers_of_agree.2 gate (record.set "c" "0") "c" "1" hkey).1⟩

end EventSieve.Gate
