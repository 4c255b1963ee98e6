import EventSieve.Proofs.Clause.Parts
import EventSieve.Proofs.Fallible

/-!
# The texts that spell a clause

`read_eq_ok_iff`: **a text is read as a clause exactly when its trimmed form spells that clause.** The
grammar leaves no choice: each part ends where the next one starts, so the longest run that a reader
takes is the part itself.
-/

namespace EventSieve.Clause

open Text

variable {t r s : List Char} {name : Option String} {c : Clause}

/-- The clause whose name is known, read from what follows the name. -/
def ReadsAfter (name : Option String) (r : List Char) (c : Clause) : Prop :=
  ∃ op a text, r.takeWhile inProperty ≠ [] ∧
    cutOperator? (trimStart (r.dropWhile inProperty)) = some (op, a) ∧ trim a ≠ [] ∧
    literalText? (trim a) = some text ∧
    c = ⟨name, .ofList (r.takeWhile inProperty), op, .ofText (.ofList text)⟩

/-- What has to go right for a clause to be read. -/
theorem readTrimmed_eq_ok_iff : readTrimmed t = .ok c ↔
    ∃ name r, cutEventName? t = some (name, r) ∧ ReadsAfter (name.map String.ofList) r c := by
  unfold readTrimmed
  simp only [List.span_eq_takeWhile_dropWhile]
  constructor
  · intro h
    split at h
    · next name r hname =>
      refine ⟨name, r, hname, ?_⟩
      split at h
      · cases h
      · next hp =>
        split at h
        · next op a hop =>
          split at h
          · cases h
          · next ha =>
            split at h
            · next text hl =>
              cases h
              exact ⟨op, a, text, mt List.isEmpty_iff.2 hp, hop, mt List.isEmpty_iff.2 ha, hl, rfl⟩
            · cases h
        · cases h
    · cases h
  · rintro ⟨name, r, hname, op, a, text, hp, hop, ha, hl, rfl⟩
    rw [hname]
    dsimp only
    rw [if_neg (mt List.isEmpty_iff.1 hp), hop]
    dsimp only
    rw [if_neg (mt List.isEmpty_iff.1 ha), hl]
    rfl

/-- What is left of a text after a run, cut at an operator: the blanks around the operator, and what
follows them. -/
theorem exists_operator_parts {test : Char → Bool} {a : List Char} (he : StopsAt isBlank r.reverse)
    (hs : trimStart (r.dropWhile test) = s ++ a) :
    ∃ before after, Blank before ∧ Blank after ∧ r.dropWhile test = before ++ (s ++ a) ∧
      a = after ++ trim a ∧ r = r.takeWhile test ++ (before ++ s ++ after ++ trim a) := by
  obtain ⟨before, hbefore, hd⟩ := exists_trimStart (r.dropWhile test)
  rw [hs] at hd
  have hr : r = r.takeWhile test ++ (before ++ s) ++ a := by
    rw [List.append_assoc, List.append_assoc, ← hd, List.takeWhile_append_dropWhile]
  rw [hr] at he
  obtain ⟨after, hafter, haa⟩ := exists_trim_of_stopsAt he.of_reverse_append
  refine ⟨before, after, hbefore, hafter, hd, haa, ?_⟩
  rw [List.append_assoc _ after, ← haa, ← List.append_assoc, ← hr]

/-- A word is not touched by a property before it, since it consists of letters. -/
theorem ne_nil_before_word {a b : List Char} (hs : s.map Char.toLower = containsWord)
    (hd : r.dropWhile inProperty = b ++ (s ++ a)) : b ≠ [] := by
  rintro rfl
  obtain ⟨d, u, rfl⟩ : ∃ d u, s = d :: u := by
    cases s with
    | nil => cases hs
    | cons d u => exact ⟨d, u, rfl⟩
  have hstop := stopsAt_dropWhile inProperty r
  rw [hd] at hstop
  have hletter := inProperty_of_mem_word hs d List.mem_cons_self
  rw [stopsAt_cons.1 hstop] at hletter
  exact Bool.false_ne_true hletter

/-- **What is read is spelled so**, when the text does not end with a blank. -/
theorem ReadsAfter.spelled (h : ReadsAfter name r c) (he : StopsAt isBlank r.reverse) :
    SpelledAfter name r c := by
  obtain ⟨op, a, text, hp, hop, ha, hl, rfl⟩ := h
  have hproperty : IsProperty (r.takeWhile inProperty) := ⟨hp, fun _ hc => List.mem_takeWhile_imp hc⟩
  have hlit := (literalText?_eq_some_iff ha).1 hl
  rcases cutOperator?_eq_some hop with ⟨s, hs, hsa⟩ | hword
  · obtain ⟨before, after, hbefore, hafter, -, -, hr⟩ := exists_operator_parts he hsa
    have hspelled : SpelledAfter name _ _ := .mk hproperty (.symbol hs hbefore hafter) hlit
    rwa [← hr] at hspelled
  · obtain ⟨rfl, hb, s, hsa, hs⟩ := cutContains?_eq_some_iff.1 hword
    obtain ⟨before, after, hbefore, hafter, hd, haa, hr⟩ := exists_operator_parts he hsa
    -- a blank follows the word, and the literal does not start with one
    have hafter' : after ≠ [] := by
      rintro rfl
      have hstop := startsBlank_eq_false_iff.2 hlit.stopsAt_isBlank.1
      rw [List.nil_append] at haa
      rw [← haa, hb] at hstop
      exact absurd hstop.symm Bool.false_ne_true
    have hspelled : SpelledAfter name _ _ :=
      .mk hproperty (.word hs hbefore (ne_nil_before_word hs hd) hafter hafter') hlit
    rwa [← hr] at hspelled

/-- The operator between the property and the literal is found. -/
theorem cutOperator?_of_spelled {op : Operator} {o l text : List Char} (ho : op.Spelled o)
    (hl : Literal.Spelled l text) :
    ∃ after, Blank after ∧ cutOperator? (trimStart (o ++ l)) = some (op, after ++ l) := by
  cases ho with
  | @symbol before s after op hs hb ha =>
    refine ⟨after, ha, ?_⟩
    have hstop : StopsAt isBlank s :=
      stopsAt_of_forall fun c hc => isBlank_of_inOperator (op.inOperator_of_mem_symbols hs c hc)
    rw [List.append_assoc, List.append_assoc, trimStart_append_left hb,
      trimStart_eq_self (hstop.append (op.ne_nil_of_mem_symbols hs))]
    refine cutOperator?_symbol hs ?_
    -- neither a blank nor the literal makes the symbol a longer one
    cases after with
    | nil => exact hl.stopsAt_inOperator
    | cons c after =>
      exact stopsAt_cons.2 (eq_false_of_excludes isBlank_of_inOperator (ha c List.mem_cons_self))
  | @word before s after hs hb _ ha ha' =>
    refine ⟨after, ha, ?_⟩
    have hletters := inProperty_of_mem_word hs
    have hs' : s ≠ [] := by
      rintro rfl
      cases hs
    have hstop : StopsAt isBlank s :=
      stopsAt_of_forall fun c hc => isBlank_of_inProperty (hletters c hc)
    have hop : StopsAt inOperator s := stopsAt_of_forall fun c hc =>
      (inEventName_iff.1 (inEventName_of_inProperty (hletters c hc))).2
    rw [List.append_assoc, List.append_assoc, trimStart_append_left hb,
      trimStart_eq_self (hstop.append hs'), cutOperator?_word (hop.append hs')]
    refine cutContains?_eq_some_iff.2 ⟨rfl, ?_, s, rfl, hs⟩
    obtain ⟨c, after, rfl⟩ := List.exists_cons_of_ne_nil ha'
    exact ha c List.mem_cons_self

/-- **What is spelled so is read.** -/
theorem SpelledAfter.reads (h : SpelledAfter name r c) : ReadsAfter name r c := by
  cases h with
  | @mk p o l text op hp ho hl =>
    have htake := takeWhile_of_stopsAt hp.chars (ho.stopsAt_inProperty (r := l))
    have hdrop := dropWhile_of_stopsAt hp.chars (ho.stopsAt_inProperty (r := l))
    obtain ⟨after, ha, hop⟩ := cutOperator?_of_spelled ho hl
    have htrim : trim (after ++ l) = l := by
      rw [trim_append_left ha, trim_eq_self hl.stopsAt_isBlank.1 hl.stopsAt_isBlank.2]
    refine ⟨op, after ++ l, text, ?_, ?_, ?_, ?_, ?_⟩
    · rw [htake]
      exact hp.ne_nil
    · rw [hdrop, hop]
    · rw [htrim]
      exact hl.ne_nil
    · rw [htrim]
      exact (literalText?_eq_some_iff hl.ne_nil).2 hl
    · rw [htake]

theorem SpelledAfter.ne_nil (h : SpelledAfter name r c) : r ≠ [] := by
  cases h with
  | mk hp ho hl => exact List.append_ne_nil_of_left_ne_nil hp.ne_nil _

/-- A text after an event's name starts with a property. -/
theorem SpelledAfter.stopsAt (h : SpelledAfter name r c) {q : Char → Bool}
    (hq : ∀ c, inProperty c = true → q c = false) : StopsAt q r := by
  cases h with
  | mk hp ho hl =>
    exact StopsAt.append (stopsAt_of_forall fun c hc => hq c (hp.chars c hc)) hp.ne_nil

/-- A property is not taken for an event's name. -/
theorem SpelledAfter.cutEventName? (h : SpelledAfter none r c) :
    Clause.cutEventName? r = some (none, r) := by
  cases h with
  | @mk p o l text op hp ho hl =>
    refine cutEventName?_unnamed.2 ⟨rfl, ?_, ?_⟩
    · -- what could be an event's name is the property
      rw [takeWhile_of_stopsAt hp.inEventName ho.stopsAt]
      exact fun hi => hp.colon_not_mem (hi.subset List.mem_cons_self)
    · obtain ⟨after, -, hop⟩ := cutOperator?_of_spelled ho hl
      rw [dropWhile_of_stopsAt hp.inEventName ho.stopsAt]
      rintro ⟨u, hu⟩
      rw [← hu, List.cons_append, cutOperator?_colon] at hop
      cases hop

theorem Spelled.ne_nil (h : Spelled s c) : s ≠ [] := by
  cases h with
  | unnamed h => exact h.ne_nil
  | named hn h => exact List.append_ne_nil_of_left_ne_nil hn.ne_nil _

/-- **A text spells the clause that it is read as.** -/
theorem read_eq_ok_iff : read t = .ok c ↔ Spelled (trim t) c := by
  have hread : read t = .ok c ↔ trim t ≠ [] ∧ readTrimmed (trim t) = .ok c := by
    unfold read
    dsimp only
    split
    · next h => simp [List.isEmpty_iff.1 h]
    · next h => simp [mt List.isEmpty_iff.2 h]
  rw [hread, readTrimmed_eq_ok_iff]
  have he := stopsAt_reverse_trim t
  generalize trim t = s at he ⊢
  constructor
  · rintro ⟨-, name, r, hname, hr⟩
    cases name with
    | none =>
      obtain ⟨rfl, -⟩ := cutEventName?_unnamed.1 hname
      exact .unnamed (hr.spelled he)
    | some name =>
      obtain ⟨rfl, hn, -⟩ := cutEventName?_named.1 hname
      rw [List.append_cons, List.append_cons] at he
      exact .named hn (hr.spelled he.of_reverse_append)
  · intro h
    refine ⟨h.ne_nil, ?_⟩
    cases h with
    | unnamed h => exact ⟨none, s, h.cutEventName?, h.reads⟩
    | @named name r c hn h =>
      have hb := h.stopsAt fun _ hc => isBlank_of_inProperty hc
      exact ⟨some name, r, cutEventName?_named.2 ⟨rfl, hn, h.ne_nil, hb⟩, h.reads⟩

end EventSieve.Clause
