import Mathlib.Data.List.Basic
import EventSieve.Event.Fields
import EventSieve.Proofs.Sieve.Composition
import EventSieve.Sieve.Stream

/-!
# What comes out of a stream behind a sieve

* `Sifted.next_cases`: what one call for the next event does.
* `Sifts`: what a number of calls return and take, and what they leave; `Sifted.sifts_calls`, by
  induction on the number of calls: **any number of calls do that.**
* `Sifted.collect`: the events that come out until there is none.
* `Sifted.nextThrough`: the next event of a stream behind two sieves, one after the other;
  `Sifted.nextThrough_eq`: **call by call they are one sieve that passes what both pass.**
-/

namespace EventSieve

section Calls

variable {σ τ ε : Type} {next : σ → Option ε × σ} {next' : τ → Option ε × τ}

/-- The answers to a number of calls one after the other, and the state after them. -/
def calls (next : σ → Option ε × σ) : ℕ → σ → List (Option ε) × σ
  | 0, s => ([], s)
  | k + 1, s =>
    let (answer, s) := next s
    let (answers, s) := calls next k s
    (answer :: answers, s)

theorem calls_succ (k : ℕ) (s : σ) : calls next (k + 1) s =
    ((next s).1 :: (calls next k (next s).2).1, (calls next k (next s).2).2) := rfl

/-- States in which single calls answer alike answer alike any number of calls. -/
theorem calls_simulate {R : σ → τ → Prop}
    (hstep : ∀ s t, R s t → (next s).1 = (next' t).1 ∧ R (next s).2 (next' t).2) {s : σ} {t : τ}
    (h : R s t) (k : ℕ) :
    (calls next k s).1 = (calls next' k t).1 ∧ R (calls next k s).2 (calls next' k t).2 := by
  induction k generalizing s t with
  | zero => exact ⟨rfl, h⟩
  | succ k ih =>
    obtain ⟨hanswer, hnext⟩ := hstep s t h
    obtain ⟨hanswers, hend⟩ := ih hnext
    rw [calls_succ, calls_succ, hanswer, hanswers]
    exact ⟨rfl, hend⟩

end Calls

variable {ε : Type} [EventLike ε] {sieve s₁ s₂ : Sieve} {events skipped rest : List ε} {event : ε}

/-- The events that pass a sieve, in order. -/
def Sieve.passing (s : Sieve) (events : List ε) : List ε := events.filter fun event => s.accepts event

namespace Sieve

theorem passing_eq_nil (h : ∀ event ∈ events, sieve.accepts event = false) : sieve.passing events = [] :=
  List.filter_eq_nil_iff.2 fun event hevent => by rw [h event hevent]; exact Bool.false_ne_true

theorem passing_skip (h : ∀ event ∈ skipped, sieve.accepts event = false)
    (hevent : sieve.accepts event = true) (rest : List ε) :
    sieve.passing (skipped ++ event :: rest) = event :: sieve.passing rest := by
  have hskipped : sieve.passing skipped = [] := passing_eq_nil h
  unfold passing at hskipped ⊢
  rw [List.filter_append, hskipped, List.nil_append, List.filter_cons_of_pos hevent]

end Sieve

namespace Sifted

theorem next_nil (sieve : Sieve) : (ofList sieve ([] : List ε)).next = (none, ofList sieve []) := rfl

/-- The next event is the first one that passes. -/
theorem next_cons (sieve : Sieve) (event : ε) (rest : List ε) :
    (ofList sieve (event :: rest)).next =
      if sieve.accepts event then (some event, ofList sieve rest) else (ofList sieve rest).next := by
  unfold next ofList
  cases h : sieve.accepts event <;> simp [h]

/-- **What one call does.** It takes events that do not pass and then the one that it returns; or no
event passes, and it takes all and returns none. -/
theorem next_cases (sieve : Sieve) (events : List ε) :
    (∃ skipped event rest, events = skipped ++ event :: rest ∧
      (∀ e ∈ skipped, sieve.accepts e = false) ∧ sieve.accepts event = true ∧
      (ofList sieve events).next = (some event, ofList sieve rest)) ∨
    ((∀ e ∈ events, sieve.accepts e = false) ∧
      (ofList sieve events).next = (none, ofList sieve [])) := by
  induction events with
  | nil => exact .inr ⟨List.forall_mem_nil _, next_nil sieve⟩
  | cons event rest ih =>
    rw [next_cons]
    cases hevent : sieve.accepts event with
    | true => exact .inl ⟨[], event, rest, rfl, List.forall_mem_nil _, hevent, rfl⟩
    | false =>
      rw [if_neg Bool.false_ne_true]
      rcases ih with ⟨skipped, e, rest', rfl, hskipped, he, hnext⟩ | ⟨hall, hnext⟩
      · exact .inl ⟨event :: skipped, e, rest', rfl, List.forall_mem_cons.2 ⟨hevent, hskipped⟩, he, hnext⟩
      · exact .inr ⟨List.forall_mem_cons.2 ⟨hevent, hall⟩, hnext⟩

/-- A call that returns an event takes at least that one. -/
theorem length_next_lt {s s' : Sifted ε} (h : s.next = (some event, s')) :
    s'.remaining.length < s.remaining.length := by
  obtain ⟨sieve, events⟩ := s
  rcases next_cases sieve events with ⟨skipped, e, rest, rfl, -, -, hnext⟩ | ⟨-, hnext⟩
  · obtain ⟨-, rfl⟩ := Prod.mk.inj (hnext.symm.trans h)
    simp only [ofList, List.length_append, List.length_cons]
    omega
  · cases hnext.symm.trans h

/-- The events that come out, call after call, until there is none. -/
def collect (s : Sifted ε) : List ε :=
  match _h : s.next with
  | (some event, s') => event :: collect s'
  | (none, _) => []
termination_by s.remaining.length
decreasing_by exact length_next_lt _h

/-- **The events that come out are those that pass.** -/
theorem collect_eq (s : Sifted ε) : s.collect = s.sieve.passing s.remaining := by
  fun_induction collect s with
  | case1 s event s' h ih =>
    obtain ⟨sieve, events⟩ := s
    rcases next_cases sieve events with ⟨skipped, e, rest, rfl, hskipped, he, hnext⟩ | ⟨-, hnext⟩
    · cases hnext.symm.trans h
      rw [ih]
      exact (Sieve.passing_skip hskipped he rest).symm
    · cases hnext.symm.trans h
  | case2 s s' h =>
    obtain ⟨sieve, events⟩ := s
    rcases next_cases sieve events with ⟨skipped, e, rest, rfl, -, -, hnext⟩ | ⟨hall, -⟩
    · cases hnext.symm.trans h
    · exact (Sieve.passing_eq_nil hall).symm

end Sifted

/-- What `k` calls do to a stream of events behind a sieve: the answers, and the stream after them. -/
structure Sifts (sieve : Sieve) (events : List ε) (k : ℕ) (answers : List (Option ε)) (s : Sifted ε) :
    Prop where
  sieve_eq : s.sieve = sieve
  /-- The events that pass come out in order, each once, and after the last of them none. -/
  answers_eq : answers = ((sieve.passing events).take k).map some ++
    List.replicate (k - (sieve.passing events).length) none
  /-- What is taken stands in front of what is left, and reaches up to the last event that came out. -/
  taken : ∃ taken, events = taken ++ s.remaining ∧
    sieve.passing taken = (sieve.passing events).take k ∧
    (none ∉ answers → taken.getLast? = ((sieve.passing events).take k).getLast?)
  /-- After the answer none, nothing is left. -/
  exhausted : none ∈ answers → s.remaining = []
  /-- What is still to come out. -/
  rest_eq : s.collect = (sieve.passing events).drop k
  /-- The hint counts the events not yet taken. -/
  hint_eq : s.hint = (0, s.remaining.length)
  /-- No more can come out than the hint says. -/
  within_hint : s.hint.1 ≤ s.collect.length ∧ s.collect.length ≤ s.hint.2

namespace Sifts

variable {answers : List (Option ε)} {s : Sifted ε} {k : ℕ}

/-- No call does nothing. -/
theorem start (sieve : Sieve) (events : List ε) : Sifts sieve events 0 [] (.ofList sieve events) where
  sieve_eq := rfl
  answers_eq := by simp
  taken := ⟨[], rfl, by simp [Sieve.passing], fun _ => by simp⟩
  exhausted h := absurd h List.not_mem_nil
  rest_eq := Sifted.collect_eq _
  hint_eq := rfl
  within_hint := by
    rw [Sifted.collect_eq]
    exact ⟨Nat.zero_le _, List.length_filter_le _ _⟩

/-- A call that returns an event, and then some more calls. -/
theorem cons (hskipped : ∀ e ∈ skipped, sieve.accepts e = false) (hevent : sieve.accepts event = true)
    (h : Sifts sieve rest k answers s) :
    Sifts sieve (skipped ++ event :: rest) (k + 1) (some event :: answers) s where
  sieve_eq := h.sieve_eq
  answers_eq := by
    rw [Sieve.passing_skip hskipped hevent, h.answers_eq]
    simp
  taken := by
    obtain ⟨taken, hevents, hpassing, hlast⟩ := h.taken
    refine ⟨skipped ++ event :: taken, ?_, ?_, fun hnone => ?_⟩
    · rw [hevents, List.append_assoc, List.cons_append]
    · rw [Sieve.passing_skip hskipped hevent, Sieve.passing_skip hskipped hevent, hpassing,
        List.take_succ_cons]
    · have hrest := hlast fun hmem => hnone (List.mem_cons_of_mem _ hmem)
      rw [Sieve.passing_skip hskipped hevent, List.take_succ_cons, List.getLast?_append,
        List.getLast?_cons, List.getLast?_cons, hrest]
      rfl
  exhausted hnone := h.exhausted (by simpa using hnone)
  rest_eq := by rw [h.rest_eq, Sieve.passing_skip hskipped hevent, List.drop_succ_cons]
  hint_eq := h.hint_eq
  within_hint := h.within_hint

/-- A call that returns none, and then some more calls. -/
theorem exhaust (hevents : ∀ e ∈ events, sieve.accepts e = false) (h : Sifts sieve [] k answers s) :
    Sifts sieve events (k + 1) (none :: answers) s where
  sieve_eq := h.sieve_eq
  answers_eq := by
    rw [h.answers_eq, Sieve.passing_eq_nil hevents, Sieve.passing_eq_nil (List.forall_mem_nil _)]
    simp [List.replicate_succ]
  taken := by
    obtain ⟨taken, hnil, -, -⟩ := h.taken
    obtain ⟨-, hremaining⟩ := List.append_eq_nil_iff.1 hnil.symm
    refine ⟨events, ?_, ?_, fun hnone => absurd List.mem_cons_self hnone⟩
    · rw [hremaining, List.append_nil]
    · rw [Sieve.passing_eq_nil hevents, List.take_nil]
  exhausted _ := by
    obtain ⟨taken, hnil, -, -⟩ := h.taken
    exact (List.append_eq_nil_iff.1 hnil.symm).2
  rest_eq := by
    rw [h.rest_eq, Sieve.passing_eq_nil hevents, Sieve.passing_eq_nil (List.forall_mem_nil _),
      List.drop_nil, List.drop_nil]
  hint_eq := h.hint_eq
  within_hint := h.within_hint

end Sifts

namespace Sifted

/-- **What any number of calls do.** -/
theorem sifts_calls (sieve : Sieve) (events : List ε) (k : ℕ) :
    Sifts sieve events k (calls next k (ofList sieve events)).1 (calls next k (ofList sieve events)).2 := by
  induction k generalizing events with
  | zero => exact .start sieve events
  | succ k ih =>
    rw [calls_succ]
    rcases next_cases sieve events with ⟨skipped, event, rest, rfl, hskipped, hevent, hnext⟩ | ⟨hall, hnext⟩
    · rw [hnext]
      exact (ih rest).cons hskipped hevent
    · rw [hnext]
      exact (ih []).exhaust hall

/-- The next event that comes out of a stream behind a sieve and passes an outer sieve too: events are
taken out of the stream until one does. -/
def nextThrough (outer : Sieve) (s : Sifted ε) : Option ε × Sifted ε :=
  match _h : s.next with
  | (some event, s') => if outer.accepts event then (some event, s') else nextThrough outer s'
  | (none, s') => (none, s')
termination_by s.remaining.length
decreasing_by exact length_next_lt _h

theorem nextThrough_some {s s' : Sifted ε} (h : s.next = (some event, s')) (outer : Sieve) :
    nextThrough outer s = if outer.accepts event then (some event, s') else nextThrough outer s' := by
  rw [nextThrough]
  split
  · next h' =>
    cases h.symm.trans h'
    rfl
  · next h' => cases h.symm.trans h'

theorem nextThrough_none {s s' : Sifted ε} (h : s.next = (none, s')) (outer : Sieve) :
    nextThrough outer s = (none, s') := by
  rw [nextThrough]
  split
  · next h' => cases h.symm.trans h'
  · next h' =>
    cases h.symm.trans h'
    rfl

/-- An event comes out of both sieves if it passes both, in whatever order it is asked. -/
theorem nextThrough_cons (outer inner : Sieve) (event : ε) (rest : List ε) :
    nextThrough outer (ofList inner (event :: rest)) =
      if (outer.accepts event && inner.accepts event) = true then (some event, ofList inner rest)
      else nextThrough outer (ofList inner rest) := by
  have hnext := next_cons inner event rest
  cases hevent : inner.accepts event with
  | true =>
    rw [hevent, if_pos rfl] at hnext
    rw [Bool.and_true, nextThrough_some hnext]
  | false =>
    rw [hevent, if_neg Bool.false_ne_true] at hnext
    rw [Bool.and_false, if_neg Bool.false_ne_true]
    -- the event is passed over inside, so the call goes on as it would after it
    cases hrest : (ofList inner rest).next with
    | mk answer s =>
      rw [hrest] at hnext
      cases answer with
      | none => rw [nextThrough_none hnext, nextThrough_none hrest]
      | some e => rw [nextThrough_some hnext, nextThrough_some hrest]

variable {both : Sieve}

/-- **Two sieves, one after the other, are one that passes what both pass**: a call returns the same
event and leaves the same events. -/
theorem nextThrough_eq (hboth : ∀ event : ε, both.accepts event = (s₁.accepts event && s₂.accepts event))
    (events : List ε) :
    (nextThrough s₁ (ofList s₂ events)).1 = (ofList both events).next.1 ∧
    (nextThrough s₁ (ofList s₂ events)).2 = ofList s₂ (ofList both events).next.2.remaining := by
  induction events with
  | nil =>
    rw [nextThrough_none (next_nil s₂), next_nil]
    exact ⟨rfl, rfl⟩
  | cons event rest ih =>
    rw [nextThrough_cons, next_cons, hboth event]
    split
    · exact ⟨rfl, rfl⟩
    · exact ih

/-- What comes out of two sieves one after the other is what both pass. -/
theorem collect_collect (hboth : ∀ event : ε, both.accepts event = (s₁.accepts event && s₂.accepts event))
    (events : List ε) :
    (ofList s₁ (ofList s₂ events).collect).collect = (ofList both events).collect := by
  simp only [collect_eq, ofList, Sieve.passing, List.filter_filter, hboth]

/-- A call leaves the sieve as it is. -/
theorem next_sieve (sieve : Sieve) (events : List ε) :
    (ofList sieve events).next.2 = ofList sieve (ofList sieve events).next.2.remaining := by
  rcases next_cases sieve events with ⟨_, _, _, -, -, -, hnext⟩ | ⟨-, hnext⟩
  · rw [hnext]
    rfl
  · rw [hnext]
    rfl

/-- Any number of calls answer alike behind two sieves and behind one that passes what both pass. -/
theorem calls_nextThrough
    (hboth : ∀ event : ε, both.accepts event = (s₁.accepts event && s₂.accepts event))
    (events : List ε) (k : ℕ) :
    (calls (nextThrough s₁) k (ofList s₂ events)).1 = (calls next k (ofList both events)).1 ∧
    (calls (nextThrough s₁) k (ofList s₂ events)).2.remaining =
      (calls next k (ofList both events)).2.remaining := by
  have hstep : ∀ s t : Sifted ε, (∃ events, s = ofList s₂ events ∧ t = ofList both events) →
      (nextThrough s₁ s).1 = t.next.1 ∧
      ∃ events, (nextThrough s₁ s).2 = ofList s₂ events ∧ t.next.2 = ofList both events := by
    rintro _ _ ⟨events, rfl, rfl⟩
    obtain ⟨hanswer, hleft⟩ := nextThrough_eq hboth events
    exact ⟨hanswer, _, hleft, next_sieve both events⟩
  obtain ⟨hanswers, left, hleft, hleft'⟩ := calls_simulate hstep ⟨events, rfl, rfl⟩ k
  rw [hleft, hleft']
  exact ⟨hanswers, rfl⟩

end Sifted

/-- The text of two filters joined by `&&` is a filter that passes what both pass. -/
theorem Sieve.ofText_and {text₁ text₂ : String} (h₁ : ofText text₁ = .ok s₁) (h₂ : ofText text₂ = .ok s₂) :
    ∃ both, ofText ("(" ++ text₁ ++ ") && (" ++ text₂ ++ ")") = .ok both ∧
      ∀ {ε : Type} [EventLike ε] (event : ε),
        both.accepts event = (s₁.accepts event && s₂.accepts event) := by
  have hl := (ofText_eq_ok_iff.1 h₁).2
  have hr := Expr.read_inParentheses (ofText_eq_ok_iff.1 h₂).2 1
  have htext : "(" ++ text₁ ++ ") && (" ++ text₂ ++ ")" =
      "(" ++ text₁ ++ ") " ++ Connective.and.spelling ++ " " ++ inParentheses text₂ 1 := by
    apply String.toList_injective
    simp [inParentheses, Connective.spelling]
  refine ⟨⟨_, .join .and s₁.root s₂.root⟩, ofText_eq_ok_iff.2 ⟨rfl, ?_⟩, fun event => ?_⟩
  · rw [htext]
    exact Expr.read_joined .and hl hr
  · exact Expr.holdsOf_join .and s₁.root s₂.root event

namespace Sifted

/-- **A stream behind a sieve.** Whatever the sieve's tree, any number of calls for the next event return
the events that pass, in order and each once, and then none; they take exactly the events up to the last
one returned, or all once none is returned; and the hint counts the events that are left. Two filters one
after the other, the second inside, let through what the filter of the text `(text₁) && (text₂)` does, as a
list and call by call. -/
theorem calls_ofList :
    (∀ (sieve : Sieve) (events : List ε) (k : ℕ),
      Sifts sieve events k (calls next k (ofList sieve events)).1 (calls next k (ofList sieve events)).2) ∧
    ∀ {text₁ text₂ : String} {s₁ s₂ : Sieve}, Sieve.ofText text₁ = .ok s₁ → Sieve.ofText text₂ = .ok s₂ →
      ∃ both, Sieve.ofText ("(" ++ text₁ ++ ") && (" ++ text₂ ++ ")") = .ok both ∧ ∀ events : List ε,
        (ofList s₁ (ofList s₂ events).collect).collect = (ofList both events).collect ∧
        ∀ k, (calls (nextThrough s₁) k (ofList s₂ events)).1 = (calls next k (ofList both events)).1 ∧
          (calls (nextThrough s₁) k (ofList s₂ events)).2.remaining =
            (calls next k (ofList both events)).2.remaining := by
  refine ⟨sifts_calls, fun h₁ h₂ => ?_⟩
  obtain ⟨both, htext, hboth⟩ := Sieve.ofText_and h₁ h₂
  exact ⟨both, htext, fun events => ⟨collect_collect hboth events, calls_nextThrough hboth events⟩⟩

/-- Four events of which the second filter passes the middle two, and both filters the third. -/
theorem calls_ofList_four :
    let s₁ : Sieve := ⟨"A > 1", .clause ⟨none, "A", .greater, .ofText "1"⟩⟩
    let s₂ : Sieve := ⟨"B == x", .clause ⟨none, "B", .equal, .ofText "x"⟩⟩
    let e₁ := TypedRow.ofFields "E" [("A", some (.int 5))]
    let e₂ := TypedRow.ofFields "E" [("A", some (.int 1)), ("B", some (.text "x"))]
    let e₃ := TypedRow.ofFields "E" [("A", some (.int 2)), ("B", some (.text "x"))]
    let e₄ := TypedRow.ofFields "E" [("B", some (.text "y"))]
    Sieve.ofText "A > 1" = .ok s₁ ∧ Sieve.ofText "B == x" = .ok s₂ ∧
    (calls next 3 (ofList s₂ [e₁, e₂, e₃, e₄])).1 = [some e₂, some e₃, none] ∧
    ∃ both, Sieve.ofText "(A > 1) && (B == x)" = .ok both ∧
      (ofList both [e₁, e₂, e₃, e₄]).collect = [e₃] ∧
      (calls (nextThrough s₁) 2 (ofList s₂ [e₁, e₂, e₃, e₄])).1 =
        (calls next 2 (ofList both [e₁, e₂, e₃, e₄])).1 := by
  intro s₁ s₂ e₁ e₂ e₃ e₄
  have h₁ : Sieve.ofText "A > 1" = .ok s₁ := Sieve.ofText_eq_ok_iff.2 ⟨rfl, by rfl⟩
  have h₂ : Sieve.ofText "B == x" = .ok s₂ := Sieve.ofText_eq_ok_iff.2 ⟨rfl, by rfl⟩
  have hinner : s₂.accepts e₁ = false ∧ s₂.accepts e₂ = true ∧ s₂.accepts e₃ = true ∧ s₂.accepts e₄ = false := by
    simp only [Sieve.accepts, Expr.holdsOf_eq_denote]
    decide
  have houter : s₁.accepts e₂ = false ∧ s₁.accepts e₃ = true := by
    simp only [Sieve.accepts, Expr.holdsOf_eq_denote]
    decide
  have hpassing : s₂.passing [e₁, e₂, e₃, e₄] = [e₂, e₃] := by simp [Sieve.passing, hinner]
  obtain ⟨hcalls, hjoined⟩ := calls_ofList (ε := TypedRow)
  obtain ⟨both, htext, hsame⟩ := hjoined h₁ h₂
  obtain ⟨hlist, hanswers⟩ := hsame [e₁, e₂, e₃, e₄]
  refine ⟨h₁, h₂, ?_, both, htext, ?_, (hanswers 2).1⟩
  · rw [(hcalls s₂ [e₁, e₂, e₃, e₄] 3).answers_eq, hpassing]
    rfl
  · rw [← hlist, collect_eq, collect_eq]
    change s₁.passing (s₂.passing [e₁, e₂, e₃, e₄]) = [e₃]
    rw [hpassing]
    simp [Sieve.passing, houter]

end Sifted

end EventSieve
