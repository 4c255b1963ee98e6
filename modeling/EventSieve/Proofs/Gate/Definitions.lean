import Std.Data.HashSet.Lemmas
import Mathlib.Data.List.Forall2
import Mathlib.Data.List.Nodup
import EventSieve.Gate.Basic
import EventSieve.Proofs.Fallible
import EventSieve.Proofs.Sieve.Composition

/-!
# The gate of a list of definitions

* `Filter.MadeOf`: the filter of a definition.
* `Gate.BadAt`: where a list of definitions is wrong; `Gate.Usable`: nowhere.
* `Gate.Added`: the ways in which a draft takes one more definition.
* `Gate.Draft.Covers`: **what a draft holds of the definitions that it took**, kept by every one more.
* `Gate.ofDefinitions_first_bad`: **the first wrong definition is the error, and without one the
  enabled definitions are the filters.**
-/

namespace EventSieve

/-- The filter `f` has the name, the mode and the expression of `d`. -/
structure Filter.MadeOf (f : Filter) (d : Definition) : Prop where
  name : f.name = d.name
  mode : f.mode = d.mode
  text : f.sieve.text = d.expression
  root : Expr.read d.expression = .ok f.sieve.root

namespace Definition

/-- A definition is broken if it is enabled and its expression is refused. -/
def Broken (d : Definition) : Prop := d.enabled = true ∧ ∃ e, Expr.read d.expression = .error e

instance (d : Definition) : Decidable d.Broken :=
  match h : Expr.read d.expression with
  | .ok _ => isFalse fun ⟨_, _, he⟩ => nomatch h.symm.trans he
  | .error e => decidable_of_iff (d.enabled = true) ⟨fun hd => ⟨hd, e, h⟩, fun hd => hd.1⟩

/-- The definition with another expression, unless it is enabled. -/
def respelled (respell : Definition → String) (d : Definition) : Definition :=
  if d.enabled then d else { d with expression := respell d }

end Definition

namespace Gate

variable {d : Definition} {ds rest : List Definition} {i : Nat} {draft next : Draft} {gate : Gate}

/-- The definition `d` cannot come after `ds`: its name is taken there, also by a definition that is
not enabled, or it is broken. -/
def Bad (ds : List Definition) (d : Definition) : Prop :=
  d.name ∈ ds.map Definition.name ∨ d.Broken

instance : Decidable (Bad ds d) := inferInstanceAs (Decidable (_ ∨ _))

/-- The definition at `i` cannot come after those before it. -/
def BadAt (ds : List Definition) (i : Nat) : Prop := ∃ d, ds[i]? = some d ∧ Bad (ds.take i) d

instance : Decidable (BadAt ds i) :=
  match h : ds[i]? with
  | some d => decidable_of_iff (Bad (ds.take i) d)
      ⟨fun hbad => ⟨d, h, hbad⟩, fun ⟨_, hd, hbad⟩ => Option.some.inj (h.symm.trans hd) ▸ hbad⟩
  | none => isFalse fun ⟨_, hd, _⟩ => nomatch h.symm.trans hd

/-- No name occurs twice and no definition is broken. The order does not matter. -/
structure Usable (ds : List Definition) : Prop where
  distinct : (ds.map Definition.name).Nodup
  unbroken : ∀ d ∈ ds, ¬d.Broken

theorem usable_nil : Usable [] :=
  ⟨List.nodup_nil, fun _ hd => absurd hd List.not_mem_nil⟩

theorem usable_concat : Usable (ds ++ [d]) ↔ Usable ds ∧ ¬Bad ds d := by
  constructor
  · rintro ⟨hdistinct, hunbroken⟩
    rw [List.map_append, List.map_singleton, List.nodup_append] at hdistinct
    obtain ⟨hds, -, hnew⟩ := hdistinct
    refine ⟨⟨hds, fun d' hd' => hunbroken d' (List.mem_append_left _ hd')⟩, ?_⟩
    rintro (htaken | hbroken)
    · exact hnew _ htaken _ (List.mem_singleton.2 rfl) rfl
    · exact hunbroken d (List.mem_append_right _ (List.mem_singleton.2 rfl)) hbroken
  · rintro ⟨⟨hdistinct, hunbroken⟩, hgood⟩
    refine ⟨?_, fun d' hd' => ?_⟩
    · rw [List.map_append, List.map_singleton, List.nodup_append]
      refine ⟨hdistinct, List.nodup_singleton _, fun name hname name' hname' he => hgood (.inl ?_)⟩
      rwa [← List.mem_singleton.1 hname', ← he]
    · rcases List.mem_append.1 hd' with hd' | hd'
      · exact hunbroken d' hd'
      · rw [List.mem_singleton.1 hd']
        exact fun hbroken => hgood (.inr hbroken)

theorem Usable.perm {ds' : List Definition} (h : Usable ds) (hp : ds'.Perm ds) : Usable ds' :=
  ⟨(hp.map Definition.name).nodup_iff.2 h.distinct, fun d hd => h.unbroken d (hp.mem_iff.1 hd)⟩

/-- What comes after a definition has no part in whether it is wrong. -/
theorem badAt_append (hi : i < ds.length) : BadAt (ds ++ rest) i ↔ BadAt ds i := by
  unfold BadAt
  rw [List.getElem?_append_left hi, List.take_append_of_le_length (Nat.le_of_lt hi)]

theorem badAt_concat : BadAt (ds ++ [d]) ds.length ↔ Bad ds d := by
  unfold BadAt
  rw [List.getElem?_concat_length, List.take_left]
  constructor
  · rintro ⟨d', hd', hbad⟩
    rwa [Option.some.inj hd']
  · exact fun hbad => ⟨d, rfl, hbad⟩

theorem BadAt.lt_length (h : BadAt ds i) : i < ds.length := by
  obtain ⟨d, hd, -⟩ := h
  exact (List.getElem?_eq_some_iff.1 hd).1

/-- **Definitions are usable if none is wrong where it stands.** -/
theorem usable_iff_not_badAt : Usable ds ↔ ∀ i, ¬BadAt ds i := by
  induction ds using List.reverseRecOn with
  | nil => exact iff_of_true usable_nil fun i h => absurd h.lt_length (Nat.not_lt_zero i)
  | append_singleton ds d ih =>
    rw [usable_concat, ih]
    constructor
    · rintro ⟨hds, hd⟩ i hbad
      have hi := hbad.lt_length
      rw [List.length_append, List.length_singleton] at hi
      rcases Nat.lt_succ_iff_lt_or_eq.1 hi with hlt | rfl
      · exact hds i ((badAt_append hlt).1 hbad)
      · exact hd (badAt_concat.1 hbad)
    · intro h
      exact ⟨fun i hbad => h i ((badAt_append hbad.lt_length).2 hbad),
        fun hbad => h ds.length (badAt_concat.2 hbad)⟩

/-- The ways in which a draft takes one more definition. -/
inductive Added (draft : Draft) (d : Definition) : Except GateError Draft → Prop
  | taken : d.name ∈ draft.names → Added draft d (.error (.nameTaken d.name))
  | refused {e : ExprError} : d.name ∉ draft.names → d.enabled = true →
      Expr.read d.expression = .error e → Added draft d (.error (.badExpression d.name e))
  | skipped : d.name ∉ draft.names → d.enabled = false →
      Added draft d (.ok ⟨draft.names.insert d.name, draft.filters⟩)
  | made {f : Filter} : d.name ∉ draft.names → d.enabled = true → f.MadeOf d →
      Added draft d (.ok ⟨draft.names.insert d.name, f :: draft.filters⟩)

/-- **A draft takes a definition in one of these ways.** -/
theorem added_add (draft : Draft) (d : Definition) : Added draft d (draft.add d) := by
  obtain ⟨names, filters⟩ := draft
  rw [Draft.add, Filter.ofDefinition, Sieve.ofText]
  split
  · next htaken => exact .taken htaken
  · next hfree =>
    split
    · next henabled =>
      cases hread : Expr.read d.expression with
      | ok root =>
        have hf : Filter.MadeOf ⟨d.name, d.mode, d.expression, root⟩ d := ⟨rfl, rfl, rfl, hread⟩
        exact .made hfree henabled hf
      | error e => exact .refused hfree henabled hread
    · next hdisabled => exact .skipped hfree (eq_false_of_ne_true hdisabled)

/-- What a draft holds of the definitions that it took: their names, and a filter of each one that is
enabled, last first. -/
structure Draft.Covers (draft : Draft) (ds : List Definition) : Prop where
  names : ∀ name, name ∈ draft.names ↔ name ∈ ds.map Definition.name
  filters : List.Forall₂ Filter.MadeOf draft.filters.reverse (ds.filter Definition.enabled)

theorem Draft.covers_nil : Draft.Covers ⟨∅, []⟩ [] :=
  ⟨fun _ => iff_of_false Std.HashSet.not_mem_emptyWithCapacity List.not_mem_nil, .nil⟩

/-- The names taken after one more definition. -/
theorem Draft.Covers.mem_insert (h : draft.Covers ds) (name : String) :
    name ∈ draft.names.insert d.name ↔ name ∈ (ds ++ [d]).map Definition.name := by
  rw [Std.HashSet.mem_insert, beq_iff_eq, h.names name, List.map_append, List.map_singleton,
    List.mem_append, List.mem_singleton, or_comm, eq_comm]

/-- **A definition that is taken is not wrong, and the draft covers it.** -/
theorem Draft.Covers.step (h : draft.Covers ds) (ha : Added draft d (.ok next)) :
    ¬Bad ds d ∧ next.Covers (ds ++ [d]) := by
  cases ha with
  | skipped hfree hdisabled =>
    refine ⟨?_, h.mem_insert, ?_⟩
    · rintro (htaken | hbroken)
      · exact hfree ((h.names _).2 htaken)
      · rw [hbroken.1] at hdisabled
        cases hdisabled
    · have hnone : [d].filter Definition.enabled = [] :=
        List.filter_cons_of_neg (by simp [hdisabled])
      rw [List.filter_append, hnone, List.append_nil]
      exact h.filters
  | made hfree henabled hf =>
    refine ⟨?_, h.mem_insert, ?_⟩
    · rintro (htaken | ⟨-, e, he⟩)
      · exact hfree ((h.names _).2 htaken)
      · rw [hf.root] at he
        cases he
    · have hone : [d].filter Definition.enabled = [d] := List.filter_cons_of_pos henabled
      rw [List.filter_append, hone, List.reverse_cons]
      exact List.rel_append h.filters (.cons hf .nil)

/-- **A definition that is wrong is the error**: its name, if that is taken, and else why its
expression is refused. -/
theorem Draft.Covers.add_bad (h : draft.Covers ds) (hbad : Bad ds d) :
    if d.name ∈ ds.map Definition.name then draft.add d = .error (.nameTaken d.name)
    else ∃ e, Expr.read d.expression = .error e ∧ draft.add d = .error (.badExpression d.name e) := by
  have ha := added_add draft d
  generalize draft.add d = result at ha ⊢
  cases ha with
  | taken htaken =>
    rw [if_pos ((h.names _).1 htaken)]
  | @refused e hfree _ he =>
    rw [if_neg fun hname => hfree ((h.names _).2 hname)]
    exact ⟨e, he, rfl⟩
  | skipped hfree hdisabled => exact absurd hbad (h.step (.skipped hfree hdisabled)).1
  | made hfree henabled hf => exact absurd hbad (h.step (.made hfree henabled hf)).1

/-- A definition that is not wrong is taken. -/
theorem Draft.Covers.add_good (h : draft.Covers ds) (hgood : ¬Bad ds d) :
    ∃ next, draft.add d = .ok next := by
  have ha := added_add draft d
  generalize draft.add d = result at ha ⊢
  cases ha with
  | taken htaken => exact absurd (.inl ((h.names _).1 htaken)) hgood
  | @refused e _ henabled he => exact absurd (.inr ⟨henabled, e, he⟩) hgood
  | skipped _ _ => exact ⟨_, rfl⟩
  | made _ _ _ => exact ⟨_, rfl⟩

/-- **Definitions that are all taken are usable, and the draft covers them.** -/
theorem usable_of_ok (h : ds.foldlM Draft.add ⟨∅, []⟩ = .ok draft) :
    Usable ds ∧ draft.Covers ds := by
  refine foldlM_invariant (P := fun ds draft => Usable ds ∧ draft.Covers ds)
    ⟨usable_nil, Draft.covers_nil⟩ ?_ h
  rintro ds d draft next ⟨husable, hcovers⟩ hadd
  have ha := added_add draft d
  rw [hadd] at ha
  obtain ⟨hgood, hnext⟩ := hcovers.step ha
  exact ⟨usable_concat.2 ⟨husable, hgood⟩, hnext⟩

/-- **Usable definitions are all taken.** -/
theorem Usable.exists_draft (h : Usable ds) :
    ∃ draft, ds.foldlM Draft.add ⟨∅, []⟩ = .ok draft := by
  -- from the end, since whether a definition is wrong depends on those before it
  induction ds using List.reverseRecOn with
  | nil => exact ⟨⟨∅, []⟩, rfl⟩
  | append_singleton ds d ih =>
    obtain ⟨husable, hgood⟩ := usable_concat.1 h
    obtain ⟨draft, hdraft⟩ := ih husable
    have hcovers := (usable_of_ok hdraft).2
    obtain ⟨next, hnext⟩ := hcovers.add_good hgood
    exact ⟨next, foldlM_append_eq_ok.2 ⟨draft, hdraft, foldlM_singleton_eq_ok.2 hnext⟩⟩

/-- **A gate is made of usable definitions**, and its filters are those of the enabled ones in their
order. -/
theorem usable_of_ofDefinitions (h : ofDefinitions ds = .ok gate) :
    Usable ds ∧ List.Forall₂ Filter.MadeOf gate.filters (ds.filter Definition.enabled) := by
  obtain ⟨draft, hdraft, hgate⟩ := bind_eq_ok.1 h
  obtain ⟨husable, hcovers⟩ := usable_of_ok hdraft
  cases hgate
  exact ⟨husable, hcovers.filters⟩

/-- Usable definitions make a gate. -/
theorem Usable.exists_gate (h : Usable ds) : ∃ gate, ofDefinitions ds = .ok gate := by
  obtain ⟨draft, hdraft⟩ := h.exists_draft
  exact ⟨⟨draft.filters.reverse⟩, bind_eq_ok.2 ⟨draft, hdraft, rfl⟩⟩

/-- The definitions before the first wrong one are usable. -/
theorem usable_take (hleast : ∀ j < i, ¬BadAt ds j) : Usable (ds.take i) := by
  refine usable_iff_not_badAt.2 fun j hj => ?_
  have hlt : j < i := Nat.lt_of_lt_of_le hj.lt_length (List.length_take_le i ds)
  refine hleast j hlt ?_
  rw [← List.take_append_drop i ds]
  exact (badAt_append hj.lt_length).2 hj

/-- An error at one definition is the error of all, whatever comes after it. -/
theorem ofDefinitions_eq_error {e : GateError} (hd : ds[i]? = some d)
    (hdraft : (ds.take i).foldlM Draft.add ⟨∅, []⟩ = .ok draft) (he : draft.add d = .error e) :
    ofDefinitions ds = .error e := by
  obtain ⟨hi, hget⟩ := List.getElem?_eq_some_iff.1 hd
  have hsplit : ds.take i ++ d :: ds.drop (i + 1) = ds := by
    rw [← hget, List.getElem_cons_drop, List.take_append_drop]
  have hfold : (ds.take i ++ d :: ds.drop (i + 1)).foldlM Draft.add ⟨∅, []⟩ = .error e :=
    foldlM_eq_error hdraft he
  rw [hsplit] at hfold
  rw [ofDefinitions, hfold]
  rfl

/-- The expression of a definition that is not enabled is never read. -/
theorem add_respelled (respell : Definition → String) (draft : Draft) (d : Definition) :
    draft.add (d.respelled respell) = draft.add d := by
  unfold Definition.respelled
  split
  · rfl
  · next hdisabled =>
    unfold Draft.add
    simp only [hdisabled, if_false, Bool.false_eq_true]

/-- **The first wrong definition is the error.** If no definition is wrong where it stands, the enabled
definitions are the filters of a gate, in their order; and if one is, the first of them is the error: its
name, if that is taken before, also by a definition that is not enabled, and else why its expression is
refused. The expressions of definitions that are not enabled have no part in this. -/
theorem ofDefinitions_first_bad (ds : List Definition) :
    ((∀ i, ¬BadAt ds i) → ∃ gate, ofDefinitions ds = .ok gate ∧
      List.Forall₂ Filter.MadeOf gate.filters (ds.filter Definition.enabled)) ∧
    (∀ i, BadAt ds i → (∀ j < i, ¬BadAt ds j) → ∃ d, ds[i]? = some d ∧
      if d.name ∈ (ds.take i).map Definition.name then ofDefinitions ds = .error (.nameTaken d.name)
      else ∃ e, Expr.read d.expression = .error e ∧
        ofDefinitions ds = .error (.badExpression d.name e)) ∧
    ∀ respell : Definition → String,
      ofDefinitions (ds.map (Definition.respelled respell)) = ofDefinitions ds := by
  refine ⟨fun hgood => ?_, fun i hbad hleast => ?_, fun respell => ?_⟩
  · obtain ⟨gate, hgate⟩ := (usable_iff_not_badAt.2 hgood).exists_gate
    exact ⟨gate, hgate, (usable_of_ofDefinitions hgate).2⟩
  · obtain ⟨d, hd, hbad⟩ := hbad
    obtain ⟨draft, hdraft⟩ := (usable_take hleast).exists_draft
    have hadd := (usable_of_ok hdraft).2.add_bad hbad
    refine ⟨d, hd, ?_⟩
    split at hadd
    · next htaken =>
      rw [if_pos htaken]
      exact ofDefinitions_eq_error hd hdraft hadd
    · next hfree =>
      rw [if_neg hfree]
      obtain ⟨e, he, hadd⟩ := hadd
      exact ⟨e, he, ofDefinitions_eq_error hd hdraft hadd⟩
  · unfold ofDefinitions
    rw [List.foldlM_map]
    simp only [add_respelled]

/-- A disabled definition is not read, but its name is taken. -/
theorem ofDefinitions_first_bad_disabled :
    let a : Definition := { name := "a", expression := "X == 1" }
    let b : Definition := { name := "b", expression := "X ==", mode := .excluding, enabled := false }
    let b' : Definition := { name := "b", expression := "Y < 2" }
    let c : Definition := { name := "c", expression := "X ^ 1" }
    (∀ i, ¬BadAt [a, b] i) ∧ (∃ gate, ofDefinitions [a, b] = .ok gate ∧
      List.Forall₂ Filter.MadeOf gate.filters [a]) ∧
    BadAt [a, b, c, b'] 2 ∧ (∀ j < 2, ¬BadAt [a, b, c, b'] j) ∧
      ofDefinitions [a, b, c, b'] = .error (.badExpression "c" (.noOperator "X ^ 1")) ∧
    BadAt [a, b, b', c] 2 ∧ (∀ j < 2, ¬BadAt [a, b, b', c] j) ∧
      ofDefinitions [a, b, b', c] = .error (.nameTaken "b") := by
  intro a b b' c
  have hgood' : ∀ i < 2, ¬BadAt [a, b] i := by decide +kernel
  have hgood : ∀ i, ¬BadAt [a, b] i := fun i hbad => hgood' i hbad.lt_length hbad
  have hc : BadAt [a, b, c, b'] 2 := by decide +kernel
  have hcleast : ∀ j < 2, ¬BadAt [a, b, c, b'] j := by decide +kernel
  have hb : BadAt [a, b, b', c] 2 := by decide +kernel
  have hbleast : ∀ j < 2, ¬BadAt [a, b, b', c] j := by decide +kernel
  obtain ⟨d, hd, hblame⟩ := (ofDefinitions_first_bad _).2.1 2 hc hcleast
  obtain rfl : c = d := Option.some.inj hd
  obtain ⟨d', hd', hblame'⟩ := (ofDefinitions_first_bad _).2.1 2 hb hbleast
  obtain rfl : b' = d' := Option.some.inj hd'
  refine ⟨hgood, (ofDefinitions_first_bad _).1 hgood, hc, hcleast, ?_, hb, hbleast, ?_⟩
  · rw [if_neg (by decide)] at hblame
    obtain ⟨e, he, hblame⟩ := hblame
    have hread : Expr.read "X ^ 1" = .error (.noOperator "X ^ 1") := by rfl
    obtain rfl := Except.error.inj (hread.symm.trans he)
    exact hblame
  · rwa [if_pos (by decide)] at hblame'

end Gate

end EventSieve
