import EventSieve.Proofs.Clause.Reader

/-!
# How a clause's text is cut into its parts

* `Division`: the parts of a clause's text as they stand in it, with the blanks between them, and
  `Division.Spells`, which parts make which clause. Nothing is said about the order of cutting.
* `Spells.unique`: **a text is cut in one way only**, because each part ends where the next begins:
  a property at a blank or a mark, blanks at the mark, a mark at a blank or the literal.
* `read_iff_division`: a text is read as a clause exactly when it can be cut into that clause's parts.
-/

namespace EventSieve.Clause

open Text

/-- The parts of a clause's text, as they stand in it. -/
structure Division where
  eventName : Option (List Char)
  property : List Char
  before : List Char
  mark : List Char
  after : List Char
  literal : List Char

namespace Division

/-- The event name and the `::` after it, if there is a name. -/
def head (d : Division) : List Char :=
  match d.eventName with
  | some name => name ++ [':', ':']
  | none => []

/-- The text that is cut into the parts. -/
def text (d : Division) : List Char :=
  d.head ++ (d.property ++ (d.before ++ d.mark ++ d.after ++ d.literal))

/-- The parts are parts of a clause, and the clause has them: a name, a property, one of the symbols
between any blanks or the word between some, and a literal. -/
structure Spells (d : Division) (c : Clause) : Prop where
  isEventName : ∀ name, d.eventName = some name → IsEventName name
  eventName_eq : c.eventName = d.eventName.map String.ofList
  isProperty : IsProperty d.property
  property_eq : c.property = String.ofList d.property
  operator : (d.mark ∈ c.operator.symbols ∧ Blank d.before ∧ Blank d.after) ∨
    (c.operator = .contains ∧ d.mark.map Char.toLower = containsWord ∧
      (Blank d.before ∧ d.before ≠ []) ∧ Blank d.after ∧ d.after ≠ [])
  literal : Literal.Spelled d.literal c.literal.text.toList

variable {d d₁ d₂ : Division} {t s : List Char} {name : Option String} {c c₁ c₂ : Clause}

theorem Spells.operatorSpelled (h : d.Spells c) :
    c.operator.Spelled (d.before ++ d.mark ++ d.after) := by
  rcases h.operator with ⟨hm, hb, ha⟩ | ⟨hop, hm, ⟨hb, hb'⟩, ha, ha'⟩
  · exact .symbol hm hb ha
  · rw [hop]
    exact .word hm hb hb' ha ha'

/-- What is put together from a clause's parts spells the clause. -/
theorem Spells.spelled (h : d.Spells c) : Spelled d.text c := by
  have hafter : SpelledAfter c.eventName
      (d.property ++ (d.before ++ d.mark ++ d.after ++ d.literal)) c := by
    have hlit : Literal.ofText (.ofList c.literal.text.toList) = c.literal :=
      Literal.ext_text String.ofList_toList
    have hs : SpelledAfter c.eventName _ _ := .mk h.isProperty h.operatorSpelled h.literal
    rwa [← h.property_eq, hlit] at hs
  have heq := h.eventName_eq
  unfold text head
  cases hn : d.eventName with
  | none =>
    rw [hn] at heq
    rw [heq] at hafter
    exact .unnamed hafter
  | some n =>
    rw [hn] at heq
    rw [heq] at hafter
    have hs := Spelled.named (h.isEventName n hn) hafter
    have happ : n ++ [':', ':'] ++ (d.property ++ (d.before ++ d.mark ++ d.after ++ d.literal)) =
        n ++ ':' :: ':' :: (d.property ++ (d.before ++ d.mark ++ d.after ++ d.literal)) := by simp
    rwa [← happ] at hs

/-- The spelling of an operator is its mark between blanks. -/
theorem exists_mark {op : Operator} {o : List Char} (h : op.Spelled o) :
    ∃ before mark after, o = before ++ mark ++ after ∧
      ((mark ∈ op.symbols ∧ Blank before ∧ Blank after) ∨
        (op = .contains ∧ mark.map Char.toLower = containsWord ∧
          (Blank before ∧ before ≠ []) ∧ Blank after ∧ after ≠ [])) := by
  cases h with
  | symbol hs hb ha => exact ⟨_, _, _, rfl, .inl ⟨hs, hb, ha⟩⟩
  | word hs hb hb' ha ha' => exact ⟨_, _, _, rfl, .inr ⟨rfl, hs, ⟨hb, hb'⟩, ha, ha'⟩⟩

/-- A text after an event's name is cut into parts without one. -/
theorem exists_of_spelledAfter (h : SpelledAfter name s c) (n : Option (List Char))
    (hn : ∀ name, n = some name → IsEventName name) (heq : name = n.map String.ofList) :
    ∃ d : Division, d.eventName = n ∧ d.text = d.head ++ s ∧ d.Spells c := by
  cases h with
  | @mk p o l text op hp ho hl =>
    obtain ⟨before, mark, after, rfl, hmark⟩ := exists_mark ho
    refine ⟨⟨n, p, before, mark, after, l⟩, rfl, rfl, hn, heq, hp, rfl, hmark, ?_⟩
    have htext : (Literal.ofText (.ofList text)).text.toList = text := String.toList_ofList
    rwa [htext]

/-- A text that spells a clause is made of the clause's parts. -/
theorem exists_of_spelled (h : Spelled s c) : ∃ d : Division, d.text = s ∧ d.Spells c := by
  cases h with
  | unnamed h =>
    have hnone : ∀ name, none = some name → IsEventName name := fun _ hn => nomatch hn
    obtain ⟨d, hd, htext, hs⟩ := exists_of_spelledAfter h none hnone rfl
    refine ⟨d, ?_, hs⟩
    rw [htext, head, hd, List.nil_append]
  | @named n r c hn h =>
    have hsome : ∀ name, some n = some name → IsEventName name := by
      intro name hname
      rwa [← Option.some.inj hname]
    obtain ⟨d, hd, htext, hs⟩ := exists_of_spelledAfter h (some n) hsome rfl
    refine ⟨d, ?_, hs⟩
    rw [htext, head, hd]
    simp

/-- A mark is not empty and has no blanks. -/
theorem Spells.mark (h : d.Spells c) : d.mark ≠ [] ∧ ∀ x ∈ d.mark, isBlank x = false := by
  rcases h.operator with ⟨hm, -, -⟩ | ⟨-, hm, -, -⟩
  · refine ⟨Operator.ne_nil_of_mem_symbols hm, fun x hx => ?_⟩
    exact isBlank_of_inOperator (Operator.inOperator_of_mem_symbols hm x hx)
  · refine ⟨fun hnil => ?_, fun x hx => isBlank_of_inProperty (inProperty_of_mem_word hm x hx)⟩
    rw [hnil] at hm
    cases hm

/-- Where the mark starts: after the last blank. -/
theorem Spells.stopsAt_mark (h : d.Spells c) (r : List Char) :
    StopsAt isBlank (d.mark ++ r) :=
  (stopsAt_of_forall h.mark.2).append h.mark.1

/-- The event names of two cuts for one clause are the same. -/
theorem Spells.eventName_unique (h₁ : d₁.Spells c) (h₂ : d₂.Spells c) :
    d₁.eventName = d₂.eventName := by
  have h := h₁.eventName_eq.symm.trans h₂.eventName_eq
  exact Option.map_injective (fun _ _ heq => String.ofList_injective heq) h

/-- A mark for a given operator ends where a blank or the literal begins. -/
theorem Spells.mark_unique (h₁ : d₁.Spells c) (h₂ : d₂.Spells c)
    (h : d₁.mark ++ (d₁.after ++ d₁.literal) = d₂.mark ++ (d₂.after ++ d₂.literal)) :
    d₁.mark = d₂.mark ∧ d₁.after ++ d₁.literal = d₂.after ++ d₂.literal := by
  -- neither a blank nor a literal continues a symbol
  have hsymbol : ∀ {d : Division}, d.Spells c → Blank d.after →
      StopsAt inOperator (d.after ++ d.literal) := by
    intro d hd ha
    by_cases hnil : d.after = []
    · rw [hnil, List.nil_append]
      exact hd.literal.stopsAt_inOperator
    · have hchars : ∀ x ∈ d.after, inOperator x = false := fun x hx =>
        eq_false_of_excludes isBlank_of_inOperator (ha x hx)
      exact (stopsAt_of_forall hchars).append hnil
  -- a blank does not continue a word
  have hword : ∀ {d : Division}, Blank d.after → d.after ≠ [] →
      StopsAt inProperty (d.after ++ d.literal) := by
    intro d ha hnil
    have hchars : ∀ x ∈ d.after, inProperty x = false := fun x hx => inProperty_of_isBlank (ha x hx)
    exact (stopsAt_of_forall hchars).append hnil
  rcases h₁.operator with ⟨hm₁, -, ha₁⟩ | ⟨hop, hm₁, -, ha₁, hn₁⟩
  · rcases h₂.operator with ⟨hm₂, -, ha₂⟩ | ⟨hop, -, -, -, -⟩
    · exact run_unique (Operator.inOperator_of_mem_symbols hm₁) (hsymbol h₁ ha₁)
        (Operator.inOperator_of_mem_symbols hm₂) (hsymbol h₂ ha₂) h
    · rw [hop] at hm₁
      exact absurd hm₁ List.not_mem_nil
  · rcases h₂.operator with ⟨hm₂, -, -⟩ | ⟨-, hm₂, -, ha₂, hn₂⟩
    · rw [hop] at hm₂
      exact absurd hm₂ List.not_mem_nil
    · exact run_unique (inProperty_of_mem_word hm₁) (hword ha₁ hn₁)
        (inProperty_of_mem_word hm₂) (hword ha₂ hn₂) h

theorem Spells.blank (h : d.Spells c) : Blank d.before ∧ Blank d.after := by
  rcases h.operator with ⟨-, hb, ha⟩ | ⟨-, -, ⟨hb, -⟩, ha, -⟩
  · exact ⟨hb, ha⟩
  · exact ⟨hb, ha⟩

/-- **A text is cut into a clause's parts in one way only.** -/
theorem Spells.unique (h₁ : d₁.Spells c) (h₂ : d₂.Spells c) (h : d₁.text = d₂.text) : d₁ = d₂ := by
  have hname := h₁.eventName_unique h₂
  have hproperty : d₁.property = d₂.property :=
    String.ofList_injective (h₁.property_eq.symm.trans h₂.property_eq)
  have hrest : d₁.before ++ (d₁.mark ++ (d₁.after ++ d₁.literal)) =
      d₂.before ++ (d₂.mark ++ (d₂.after ++ d₂.literal)) := by
    have hhead : d₁.head = d₂.head := by rw [head, head, hname]
    unfold text at h
    rw [hhead, hproperty] at h
    simpa only [List.append_cancel_left_eq, List.append_assoc] using h
  obtain ⟨hbefore, hrest⟩ := run_unique h₁.blank.1 (h₁.stopsAt_mark _) h₂.blank.1
    (h₂.stopsAt_mark _) hrest
  obtain ⟨hmark, hrest⟩ := h₁.mark_unique h₂ hrest
  obtain ⟨hafter, hliteral⟩ := run_unique h₁.blank.2 h₁.literal.stopsAt_isBlank.1 h₂.blank.2
    h₂.literal.stopsAt_isBlank.1 hrest
  obtain ⟨n₁, p₁, b₁, m₁, a₁, l₁⟩ := d₁
  obtain ⟨n₂, p₂, b₂, m₂, a₂, l₂⟩ := d₂
  simp only at hname hproperty hbefore hmark hafter hliteral
  rw [hname, hproperty, hbefore, hmark, hafter, hliteral]

end Division

variable {t : List Char}

/-- **Reading a clause is cutting its trimmed text into parts**, in whatever order they are found, and
there is at most one way of cutting it, for at most one clause. -/
theorem read_iff_division (t : List Char) :
    (∀ c, read t = .ok c ↔ ∃ d : Division, d.text = trim t ∧ d.Spells c) ∧
    ∀ d₁ d₂ : Division, ∀ c₁ c₂, d₁.text = trim t → d₂.text = trim t → d₁.Spells c₁ →
      d₂.Spells c₂ → d₁ = d₂ ∧ c₁ = c₂ := by
  have hread : ∀ c, read t = .ok c ↔ ∃ d : Division, d.text = trim t ∧ d.Spells c := by
    intro c
    rw [read_eq_ok_iff]
    constructor
    · exact Division.exists_of_spelled
    · rintro ⟨d, htext, hs⟩
      rw [← htext]
      exact hs.spelled
  refine ⟨hread, ?_⟩
  intro d₁ d₂ c₁ c₂ ht₁ ht₂ hs₁ hs₂
  have hc : c₁ = c₂ := by
    have h₁ := (hread c₁).2 ⟨d₁, ht₁, hs₁⟩
    have h₂ := (hread c₂).2 ⟨d₂, ht₂, hs₂⟩
    exact Except.ok.inj (h₁.symm.trans h₂)
  subst hc
  exact ⟨hs₁.unique hs₂ (ht₁.trans ht₂.symm), rfl⟩

/-- A name with a lone colon and a quote, the word in mixed case, and a literal that holds `::`: there
is one cut, and it makes the clause that is read. -/
theorem read_iff_division_named :
    let t := " G:\"::a.b  cOnTaInS \t\"x::y\"".toList
    let d : Division := ⟨some "G:\"".toList, "a.b".toList, "  ".toList, "cOnTaInS".toList,
      " \t".toList, "\"x::y\"".toList⟩
    let c : Clause := ⟨some "G:\"", "a.b", .contains, .ofText "x::y"⟩
    read t = .ok c ∧ d.text = trim t ∧ d.Spells c ∧
      ∀ d' c', d'.text = trim t → d'.Spells c' → d' = d ∧ c' = c := by
  intro t d c
  have hpair : splitAtPair ':' ':' "G:\"::".toList = some ("G:\"".toList, []) := by decide
  have hname : IsEventName "G:\"".toList :=
    ⟨by decide, by decide, (splitAtPair_eq_some_iff.1 hpair).2⟩
  have hblank : (Blank "  ".toList ∧ "  ".toList ≠ []) ∧ Blank " \t".toList ∧ " \t".toList ≠ [] := by
    unfold Blank
    decide
  have hliteral : Literal.Spelled ('"' :: "x::y".toList ++ ['"']) "x::y".toList :=
    .quoted (by decide)
  have hspells : d.Spells c :=
    { isEventName := fun name hn => Option.some.inj hn ▸ hname
      eventName_eq := rfl
      isProperty := ⟨by decide, by decide⟩
      property_eq := rfl
      operator := .inr ⟨rfl, by decide, hblank⟩
      literal := hliteral }
  have htext : d.text = trim t := by decide
  obtain ⟨hcut, hunique⟩ := read_iff_division t
  exact ⟨(hcut c).2 ⟨d, htext, hspells⟩, htext, hspells,
    fun d' c' ht hs => hunique d' d c' c ht htext hs hspells⟩

end EventSieve.Clause
