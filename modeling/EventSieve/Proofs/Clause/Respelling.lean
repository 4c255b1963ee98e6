import EventSieve.Proofs.Clause.Division
import EventSieve.Proofs.Clause.WellFormed
import EventSieve.Proofs.Token.Exchange

/-!
# Other spellings of a clause

* `OperatorEdit`: blanks put next to a symbol, `=` for `==` and the reverse, the operator word in another
  letter case. `OperatorEdit.spells`: they leave the clause what it is.
* `Spells.insert`: so do blanks put next to blanks outside quotes, because only the operator has blanks
  around it there.
* `Spells.isClauseText`, `Spells.ends`: with another operator, and other blanks around it, a clause is
  still one token, and starts and ends as before.
-/

namespace EventSieve

open Text

/-- A blank stands right before a place of a text, or right after it. -/
def BesideBlank (u v : List Char) : Prop :=
  ∃ c, isBlank c = true ∧ (u.getLast? = some c ∨ v.head? = some c)

variable {a b l p q u v z text : List Char} {c : Clause}

/-- A place in two texts put together lies in the first one before its end, or in the second one. -/
theorem place_of_append (h : u ++ v = p ++ q) :
    (∃ r, r ≠ [] ∧ u = p ++ r ∧ q = r ++ v) ∨ ∃ r, p = u ++ r ∧ v = r ++ q := by
  rcases List.append_eq_append_iff.1 h with ⟨r, hp, hv⟩ | ⟨r, hu, hq⟩
  · exact .inr ⟨r, hp, hv⟩
  · by_cases hr : r = []
    · rw [hr, List.append_nil] at hu
      rw [hr, List.nil_append] at hq
      exact .inr ⟨[], by rw [List.append_nil, hu], by rw [List.nil_append, hq]⟩
    · exact .inl ⟨r, hr, hu, hq⟩

/-- Only what stands next to a place matters. -/
theorem besideBlank_append (hp : p ≠ []) (hq : q ≠ []) :
    BesideBlank (u ++ p) (q ++ v) ↔ BesideBlank p q := by
  unfold BesideBlank
  rw [List.getLast?_append_of_ne_nil _ hp, List.head?_append_of_ne_nil _ hq]

/-- No place of a text without blanks is beside one. -/
theorem not_besideBlank (h : ∀ c ∈ p ++ q, isBlank c = false) : ¬ BesideBlank p q := by
  rintro ⟨c, hc, hpq⟩
  have hmem : c ∈ p ++ q := by
    rcases hpq with hp | hq
    · exact List.mem_append_left q (List.mem_of_getLast? hp)
    · exact List.mem_append_right p (List.mem_of_head? hq)
  rw [h c hmem] at hc
  exact Bool.false_ne_true hc

/-- No place inside a literal is beside a blank, unless it stands between quotes. -/
theorem Literal.Spelled.not_besideBlank (h : Literal.Spelled l text) (hl : l = p ++ q) (hp : p ≠ [])
    (hq : q ≠ []) (hclosed : QuotesClosed p) : ¬ BesideBlank p q := by
  cases h with
  | quoted ht =>
    -- the first quote is open until the last one, which is the end
    obtain ⟨x, p, rfl⟩ := List.exists_cons_of_ne_nil hp
    rw [List.cons_append, List.cons_append, List.cons.injEq] at hl
    obtain ⟨rfl, hl⟩ := hl
    rcases place_of_append hl with ⟨r, -, rfl, -⟩ | ⟨r, rfl, hr⟩
    · have hcount : p.count '"' = 0 := List.count_eq_zero.2 fun hm => ht (List.mem_append_left r hm)
      unfold QuotesClosed at hclosed
      rw [List.count_cons_self, hcount] at hclosed
      exact absurd hclosed (by decide)
    · cases r with
      | nil =>
        have hcount : text.count '"' = 0 := List.count_eq_zero.2 ht
        unfold QuotesClosed at hclosed
        rw [List.append_nil, List.count_cons_self, hcount] at hclosed
        exact absurd hclosed (by decide)
      | cons x r =>
        have hnil := (List.append_eq_nil_iff.1 (List.cons.inj hr).2.symm).2
        exact absurd hnil hq
  | bare hn ht =>
    refine EventSieve.not_besideBlank fun c hc => ?_
    rw [← hl] at hc
    exact (inLiteral_iff.1 (ht c hc)).2.2

namespace Clause.Division

variable {d d' : Division}

/-- What stands before the operator and the blanks around it. -/
def subject (d : Division) : List Char := d.head ++ d.property

theorem text_eq (d : Division) :
    d.text = d.subject ++ (d.before ++ (d.mark ++ (d.after ++ d.literal))) := by
  simp only [text, subject, List.append_assoc]

/-- Ways of spelling a clause's operator differently: blanks next to a symbol, one equals sign for two or
two for one, and letters of the word in another case. -/
inductive OperatorEdit : Division → Division → Prop
  | before {d : Division} {op : Operator} {b : List Char} : d.mark ∈ op.symbols → Blank b →
      OperatorEdit d { d with before := d.before ++ b }
  | after {d : Division} {op : Operator} {b : List Char} : d.mark ∈ op.symbols → Blank b →
      OperatorEdit d { d with after := b ++ d.after }
  | double {d : Division} : d.mark = ['='] → OperatorEdit d { d with mark := ['=', '='] }
  | single {d : Division} : d.mark = ['=', '='] → OperatorEdit d { d with mark := ['='] }
  | letterCase {d : Division} {word : List Char} : d.mark.map Char.toLower = containsWord →
      word.map Char.toLower = d.mark.map Char.toLower → OperatorEdit d { d with mark := word }

theorem Spells.subject (h : d.Spells c) : d.subject ≠ [] ∧ ∀ x ∈ d.subject, isBlank x = false := by
  refine ⟨List.append_ne_nil_of_right_ne_nil _ h.isProperty.ne_nil, ?_⟩
  refine List.forall_mem_append.2 ⟨?_, fun x hx => isBlank_of_inProperty (h.isProperty.chars x hx)⟩
  unfold head
  cases hn : d.eventName with
  | none => exact fun x hx => absurd hx List.not_mem_nil
  | some name =>
    refine List.forall_mem_append.2 ⟨fun x hx => ?_, by decide⟩
    exact (inEventName_iff.1 ((h.isEventName name hn).chars x hx)).1

/-- Two divisions for one clause have the same event name and the same property. -/
theorem Spells.subject_unique (h : d.Spells c) (h' : d'.Spells c) : d'.subject = d.subject := by
  have hproperty : d'.property = d.property :=
    String.ofList_injective (h'.property_eq.symm.trans h.property_eq)
  unfold Division.subject head
  rw [h'.eventName_unique h, hproperty]

/-- Quotes are closed at the operator if they are closed at the end. -/
theorem Spells.quotesClosed_subject (h : d.Spells c) (hq : QuotesClosed d.text) :
    QuotesClosed d.subject := by
  have hop := quotesClosed_of_not_special h.operatorSpelled.not_special
  have hrest : QuotesClosed (d.before ++ (d.mark ++ (d.after ++ d.literal))) := by
    have hclosed := (quotesClosed_append hop).2 h.literal.quotesClosed
    simpa only [List.append_assoc] using hclosed
  rw [text_eq] at hq
  exact hq.of_append_left hrest

/-- The blanks around an operator can be others, but the word needs some. -/
theorem Spells.withBlanks (h : d.Spells c) (hb : Blank b) (ha : Blank a)
    (hb' : b = [] → d.before = []) (ha' : a = [] → d.after = []) :
    { d with before := b, after := a }.Spells c := by
  refine ⟨h.isEventName, h.eventName_eq, h.isProperty, h.property_eq, ?_, h.literal⟩
  rcases h.operator with ⟨hm, -, -⟩ | ⟨hop, hm, ⟨-, hbne⟩, -, hane⟩
  · exact .inl ⟨hm, hb, ha⟩
  · exact .inr ⟨hop, hm, ⟨hb, mt hb' hbne⟩, ha, mt ha' hane⟩

theorem Spells.withMark {mark : List Char} (h : d.Spells c)
    (hm : ∀ op : Operator, d.mark ∈ op.symbols → mark ∈ op.symbols)
    (hw : d.mark.map Char.toLower = containsWord → mark.map Char.toLower = containsWord) :
    { d with mark }.Spells c := by
  refine ⟨h.isEventName, h.eventName_eq, h.isProperty, h.property_eq, ?_, h.literal⟩
  rcases h.operator with ⟨hmem, hblank⟩ | ⟨hop, hword, hblank⟩
  · exact .inl ⟨hm _ hmem, hblank⟩
  · exact .inr ⟨hop, hw hword, hblank⟩

/-- **Another spelling of the operator leaves the clause what it is.** -/
theorem OperatorEdit.spells (hedit : OperatorEdit d d') (h : d.Spells c) :
    d'.Spells c ∧ d'.literal = d.literal := by
  obtain ⟨hbefore, hafter⟩ := h.blank
  cases hedit with
  | before hm hb =>
    have hblank := blank_append.2 ⟨hbefore, hb⟩
    exact ⟨h.withBlanks hblank hafter (fun hnil => (List.append_eq_nil_iff.1 hnil).1) id, rfl⟩
  | after hm hb =>
    have hblank := blank_append.2 ⟨hb, hafter⟩
    exact ⟨h.withBlanks hbefore hblank id (fun hnil => (List.append_eq_nil_iff.1 hnil).2), rfl⟩
  | double hm =>
    refine ⟨h.withMark (fun op hop => ?_) (fun hw => ?_), rfl⟩
    · rw [hm] at hop
      cases op <;> revert hop <;> decide
    · rw [hm] at hw
      exact absurd hw (by decide)
  | single hm =>
    refine ⟨h.withMark (fun op hop => ?_) (fun hw => ?_), rfl⟩
    · rw [hm] at hop
      cases op <;> revert hop <;> decide
    · rw [hm] at hw
      exact absurd hw (by decide)
  | letterCase hm hword =>
    refine ⟨h.withMark (fun op hop => ?_) (fun hw => hword.trans hw), rfl⟩
    -- the word is made of letters, and a symbol is not
    obtain ⟨x, s, hs⟩ := List.exists_cons_of_ne_nil (Operator.ne_nil_of_mem_symbols hop)
    have hx : x ∈ d.mark := by
      rw [hs]
      exact List.mem_cons_self
    have hletter := inProperty_of_mem_word hm x hx
    rw [inProperty_of_inOperator (Operator.inOperator_of_mem_symbols hop x hx)] at hletter
    exact absurd hletter Bool.false_ne_true

/-- Blanks put among blanks are blanks, and not nothing if there were some. -/
theorem blank_insert (h : Blank (p ++ q)) (hb : Blank b) :
    Blank (p ++ (b ++ q)) ∧ (p ++ (b ++ q) = [] → p ++ q = []) := by
  obtain ⟨hp, hq⟩ := blank_append.1 h
  refine ⟨blank_append.2 ⟨hp, blank_append.2 ⟨hb, hq⟩⟩, fun hnil => ?_⟩
  simp only [List.append_eq_nil_iff] at hnil
  exact List.append_eq_nil_iff.2 ⟨hnil.1, hnil.2.2⟩

/-- Blanks put among those before the operator. -/
theorem Spells.insert_before (h : d.Spells c) (hb : Blank b) (hs : d.before = p ++ q) :
    ∃ d' : Division, d'.Spells c ∧ d'.literal = d.literal ∧
      d'.text = d.subject ++ (p ++ (b ++ (q ++ (d.mark ++ (d.after ++ d.literal))))) := by
  obtain ⟨hbefore, hafter⟩ := h.blank
  obtain ⟨hblank, hne⟩ := blank_insert (hs ▸ hbefore) hb
  rw [← hs] at hne
  refine ⟨_, h.withBlanks hblank hafter hne id, rfl, ?_⟩
  simp only [text_eq, Division.subject, head, List.append_assoc]

/-- Blanks put among those after the operator. -/
theorem Spells.insert_after (h : d.Spells c) (hb : Blank b) (hs : d.after = p ++ q) :
    ∃ d' : Division, d'.Spells c ∧ d'.literal = d.literal ∧
      d'.text = d.subject ++ (d.before ++ (d.mark ++ (p ++ (b ++ (q ++ d.literal))))) := by
  obtain ⟨hbefore, hafter⟩ := h.blank
  obtain ⟨hblank, hne⟩ := blank_insert (hs ▸ hafter) hb
  rw [← hs] at hne
  refine ⟨_, h.withBlanks hbefore hblank id hne, rfl, ?_⟩
  simp only [text_eq, Division.subject, head, List.append_assoc]

/-- **Blanks put next to blanks outside quotes leave the clause what it is**: they are among those around
the operator. -/
theorem Spells.insert (h : d.Spells c) (hclosed : QuotesClosed d.text) (htext : d.text = p ++ q)
    (hp : p ≠ []) (hq : q ≠ []) (hpq : QuotesClosed p) (hbeside : BesideBlank p q) (hb : Blank b) :
    ∃ d' : Division, d'.Spells c ∧ d'.literal = d.literal ∧ d'.text = p ++ (b ++ q) := by
  have hsubject := h.quotesClosed_subject hclosed
  rw [text_eq] at htext
  rcases place_of_append htext with ⟨r, hr, hs, rfl⟩ | ⟨p, rfl, hbefore⟩
  · -- inside the event name or the property
    rw [← List.nil_append p, besideBlank_append hp hr] at hbeside
    refine absurd hbeside (not_besideBlank fun x hx => ?_)
    rw [← hs] at hx
    exact h.subject.2 x hx
  simp only [List.append_assoc] at hp hpq hbeside ⊢
  rcases place_of_append hbefore with ⟨r, -, hs, rfl⟩ | ⟨p, rfl, hmark⟩
  · exact h.insert_before hb hs
  simp only [List.append_assoc] at hp hpq hbeside ⊢
  rcases place_of_append hmark with ⟨r, hr, hs, rfl⟩ | ⟨p, rfl, hafter⟩
  · by_cases hnil : p = []
    · -- right before the operator
      rw [hnil, List.nil_append] at hs
      rw [hnil, List.nil_append, ← hs]
      exact h.insert_before hb (List.append_nil _).symm
    · -- inside the operator
      rw [← List.append_assoc, besideBlank_append hnil hr] at hbeside
      refine absurd hbeside (not_besideBlank fun x hx => ?_)
      rw [← hs] at hx
      exact h.mark.2 x hx
  simp only [List.append_assoc] at hp hpq hbeside ⊢
  rcases place_of_append hafter with ⟨r, -, hs, rfl⟩ | ⟨p, rfl, hliteral⟩
  · exact h.insert_after hb hs
  simp only [List.append_assoc] at hp hpq hbeside ⊢
  by_cases hnil : p = []
  · -- right before the literal
    rw [hnil, List.nil_append] at hliteral
    rw [hnil, List.nil_append, ← hliteral]
    exact h.insert_after hb (List.append_nil _).symm
  · -- inside the literal
    have hop := quotesClosed_of_not_special h.operatorSpelled.not_special
    have hpq' : QuotesClosed (d.subject ++ (d.before ++ d.mark ++ d.after ++ p)) := by
      simpa only [List.append_assoc] using hpq
    have hclosed' := (quotesClosed_append hop).1 ((quotesClosed_append hsubject).1 hpq')
    simp only [← List.append_assoc] at hbeside
    rw [← List.append_nil q, besideBlank_append hnil hq] at hbeside
    exact absurd hbeside (h.literal.not_besideBlank hliteral hnil hq hclosed')

/-- **With another operator a clause is still one token.** -/
theorem Spells.isClauseText (h : d.Spells c) (h' : d'.Spells c) (hl : d'.literal = d.literal)
    (hw : IsClauseText d.text) : IsClauseText d'.text := by
  have hsubject := h.quotesClosed_subject hw.quotesClosed
  have hop := h.operatorSpelled.not_special
  have hop' := h'.operatorSpelled.not_special
  have htext : d.text = (d.subject ++ (d.before ++ d.mark ++ d.after)) ++ d.literal := by
    simp only [text_eq, List.append_assoc]
  have htext' : d'.text = (d.subject ++ (d'.before ++ d'.mark ++ d'.after)) ++ d.literal := by
    simp only [text_eq, h.subject_unique h', hl, List.append_assoc]
  have hclosed : ∀ {o : List Char}, (∀ c ∈ o, special c = false) → QuotesClosed (d.subject ++ o) :=
    fun ho => (quotesClosed_append hsubject).2 (quotesClosed_of_not_special ho)
  have hu := hw.unmarked
  rw [htext] at hu
  have hliteral : Unmarked d.literal := hu.of_append_right (hclosed hop)
  -- the operator has no character of a mark, so none is made where it meets the other parts
  have hne : ∀ {o : List Char}, (∀ c ∈ o, special c = false) → ∀ k : Connective, k.char ∉ o := by
    intro o ho k hk
    have hspecial := ho k.char hk
    rw [k.special_char] at hspecial
    exact Bool.false_ne_true hspecial.symm
  have hhead : Unmarked (d.subject ++ (d'.before ++ d'.mark ++ d'.after)) :=
    hu.of_append_left.of_append_left.append (unmarked_of_not_special hop') hsubject
      fun k _ hk => hne hop' k (List.mem_of_head? hk)
  have hunmarked : Unmarked d'.text := by
    rw [htext']
    refine hhead.append hliteral (hclosed hop') fun k hk _ => hne hop' k ?_
    rw [List.getLast?_append_of_ne_nil _ h'.operatorSpelled.ne_nil] at hk
    exact List.mem_of_getLast? hk
  have htrim := h'.spelled.trim_eq_self
  refine ⟨h'.spelled.ne_nil, ?_, ?_, hunmarked, ?_⟩
  · rw [← htrim]
    exact stopsAt_trim _
  · rw [← htrim]
    exact stopsAt_reverse_trim _
  · rw [htext']
    exact (quotesClosed_append (hclosed hop')).2 h.literal.quotesClosed

/-- Another operator stands between the same ends. -/
theorem Spells.ends (h : d.Spells c) (h' : d'.Spells c) (hl : d'.literal = d.literal) :
    d'.text.head? = d.text.head? ∧ d'.text.getLast? = d.text.getLast? := by
  rw [text_eq, text_eq, h.subject_unique h', hl]
  constructor
  · rw [List.head?_append_of_ne_nil _ h.subject.1, List.head?_append_of_ne_nil _ h.subject.1]
  · simp only [← List.append_assoc]
    rw [List.getLast?_append_of_ne_nil _ h.literal.ne_nil,
      List.getLast?_append_of_ne_nil _ h.literal.ne_nil]

/-- What a clause's parts are put together to is read as the clause. -/
theorem Spells.read_text (h : d.Spells c) : Clause.read d.text = .ok c := by
  rw [read_eq_ok_iff, h.spelled.trim_eq_self]
  exact h.spelled

end Clause.Division

end EventSieve
