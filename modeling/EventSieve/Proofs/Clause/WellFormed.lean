import EventSieve.Proofs.Clause.Reader
import EventSieve.Proofs.Token.Clauses

/-!
# Clauses whose rendering is read back

* `Clause.Legible`: a clause whose rendering spells it (`Legible.spelled`).
* `Clause.WellFormed`: a clause whose rendering is moreover one token (`WellFormed.scan_render`).
* `Spelled.legible`, `Spelled.wellFormed`: **every clause that is read is legible, and well formed
  when its text came from a scan.**
* `read_render_of_read`: **rendering is undone by reading, for every clause that is read.**
-/

namespace EventSieve

open Text

/-- A clause whose rendering can be read: its names are names and its literal has no quote. -/
structure Clause.Legible (c : Clause) : Prop where
  eventName : ∀ name, c.eventName = some name → IsEventName name.toList
  property : IsProperty c.property.toList
  literal : '"' ∉ c.literal.text.toList

/-- A legible clause whose event name has no marks and its quotes in pairs, so that a scan keeps the
rendering in one piece. -/
structure Clause.WellFormed (c : Clause) : Prop extends c.Legible where
  unmarked : ∀ name, c.eventName = some name → Unmarked name.toList ∧ QuotesClosed name.toList

variable {name : Option String} {p s o l r text : List Char} {op : Operator} {c : Clause}

theorem not_special_between_blanks {before after : List Char} (hb : Blank before)
    (hs : ∀ c ∈ s, special c = false) (ha : Blank after) :
    ∀ c ∈ before ++ s ++ after, special c = false := by
  refine List.forall_mem_append.2 ⟨List.forall_mem_append.2 ⟨?_, hs⟩, ?_⟩
  · exact not_special_of_blank hb
  · exact not_special_of_blank ha

/-- An operator and the blanks around it have no special character. -/
theorem Operator.Spelled.not_special (h : op.Spelled o) : ∀ c ∈ o, special c = false := by
  cases h with
  | symbol hs hb ha =>
    have hsymbol := inOperator_of_mem_symbols hs
    exact not_special_between_blanks hb (fun c hc => special_of_inOperator (hsymbol c hc)) ha
  | word hs hb _ ha _ =>
    have hword := inProperty_of_mem_word hs
    exact not_special_between_blanks hb (fun c hc => special_of_inProperty (hword c hc)) ha

/-- A literal has two quotes or none. -/
theorem Literal.Spelled.quotesClosed (h : Literal.Spelled l text) : QuotesClosed l := by
  cases h with
  | quoted ht => exact quotesClosed_quoted ht
  | bare hn ht => exact quotesClosed_of_not_mem fun hq => (inLiteral_iff.1 (ht _ hq)).1 rfl

theorem Literal.Spelled.not_mem (h : Literal.Spelled l text) : '"' ∉ text := by
  cases h with
  | quoted ht => exact ht
  | bare hn ht => exact fun hq => (inLiteral_iff.1 (ht _ hq)).1 rfl

theorem IsProperty.not_special (h : IsProperty p) : ∀ c ∈ p, special c = false :=
  fun c hc => special_of_inProperty (h.chars c hc)

namespace Clause

theorem SpelledAfter.eventName (h : SpelledAfter name s c) : c.eventName = name := by
  cases h with
  | mk hp ho hl => rfl

theorem SpelledAfter.quotesClosed (h : SpelledAfter name s c) : QuotesClosed s := by
  cases h with
  | mk hp ho hl =>
    rw [quotesClosed_append (quotesClosed_of_not_special hp.not_special),
      quotesClosed_append (quotesClosed_of_not_special ho.not_special)]
    exact hl.quotesClosed

/-- The property and the literal of a clause that is read. -/
theorem SpelledAfter.parts (h : SpelledAfter name s c) :
    IsProperty c.property.toList ∧ '"' ∉ c.literal.text.toList := by
  cases h with
  | mk hp ho hl =>
    constructor
    · rw [String.toList_ofList]
      exact hp
    · rw [Literal.ofText, String.toList_ofList]
      exact hl.not_mem

/-- **Every clause that is read is legible.** -/
theorem Spelled.legible (h : Spelled s c) : c.Legible := by
  cases h with
  | unnamed h =>
    refine ⟨fun name hn => ?_, h.parts.1, h.parts.2⟩
    rw [h.eventName] at hn
    cases hn
  | @named name r c hname h =>
    refine ⟨fun name' hn => ?_, h.parts.1, h.parts.2⟩
    rw [h.eventName] at hn
    cases hn
    rw [String.toList_ofList]
    exact hname

/-- **A clause that is read from a text without marks is well formed.** -/
theorem Spelled.wellFormed (h : Spelled s c) (hu : Unmarked s) (hq : QuotesClosed s) :
    c.WellFormed := by
  refine ⟨h.legible, fun name' hn => ?_⟩
  cases h with
  | unnamed h =>
    rw [h.eventName] at hn
    cases hn
  | @named name r c hname h =>
    rw [h.eventName] at hn
    cases hn
    rw [String.toList_ofList]
    refine ⟨hu.of_append_left, ?_⟩
    -- the quotes after the name come in pairs, so those of the name do
    have hr := h.quotesClosed
    unfold QuotesClosed at hq hr ⊢
    rw [List.count_append, List.count_cons_of_ne (by decide), List.count_cons_of_ne (by decide)] at hq
    omega

end Clause

theorem Operator.spelled_spelling (op : Operator) :
    op.Spelled ([' '] ++ op.spelling.toList ++ [' ']) := by
  by_cases h : op = .contains
  · subst h
    exact .word (by decide) blank_space (List.cons_ne_nil _ _) blank_space (List.cons_ne_nil _ _)
  · refine .symbol ?_ blank_space blank_space
    cases op with
    | contains => exact absurd rfl h
    | _ => decide

/-- What a literal's text is free of when it stands bare. -/
theorem Literal.needsQuotes_eq_false_iff : needsQuotes text = false ↔ text ≠ [] ∧
    (∀ c ∈ text, isBlank c = false ∧ c ≠ '(' ∧ c ≠ ')' ∧ inOperator c = false) ∧
    ∀ k : Connective, ¬ [k.char, k.char] <:+: text := by
  have hk : (∀ k : Connective, ¬ [k.char, k.char] <:+: text) ↔
      ¬ ['&', '&'] <:+: text ∧ ¬ ['|', '|'] <:+: text :=
    ⟨fun h => ⟨h .and, h .or⟩, fun h k => by cases k; exacts [h.1, h.2]⟩
  rw [hk, ← occursIn_iff, ← occursIn_iff]
  simp [needsQuotes, and_assoc]

theorem Literal.toList_render (lit : Literal) : lit.render.toList =
    if needsQuotes lit.text.toList then '"' :: lit.text.toList ++ ['"'] else lit.text.toList := by
  unfold Literal.render
  split
  · simp
  · rfl

/-- A literal without a quote in its text is rendered as one of its spellings. -/
theorem Literal.spelled_render {lit : Literal} (h : '"' ∉ lit.text.toList) :
    Literal.Spelled lit.render.toList lit.text.toList := by
  rw [toList_render]
  split
  · exact .quoted h
  · next hn =>
    obtain ⟨hne, hchars, -⟩ := needsQuotes_eq_false_iff.1 (Bool.eq_false_iff.2 hn)
    refine .bare hne fun c hc => inLiteral_iff.2 ⟨?_, (hchars c hc).2.2.2, (hchars c hc).1⟩
    rintro rfl
    exact h hc

/-- Rendering puts a literal in quotes that would be cut in pieces without. -/
theorem Literal.unmarked_render {lit : Literal} (h : '"' ∉ lit.text.toList) :
    Unmarked lit.render.toList := by
  rw [toList_render]
  split
  · exact unmarked_quoted h
  · next hn =>
    obtain ⟨-, hchars, hk⟩ := needsQuotes_eq_false_iff.1 (Bool.eq_false_iff.2 hn)
    refine unmarked_of_not_infix fun m hm hi => ?_
    cases m with
    | clause text => exact hm
    | connective k => exact hk k hi
    | opening => exact (hchars _ (hi.subset List.mem_cons_self)).2.1 rfl
    | closing => exact (hchars _ (hi.subset List.mem_cons_self)).2.2.1 rfl

namespace Clause

/-- A clause's rendering after the event name. -/
def renderAfter (c : Clause) : List Char :=
  c.property.toList ++ ([' '] ++ c.operator.spelling.toList ++ [' '] ++ c.literal.render.toList)

theorem toList_render_of_none (h : c.eventName = none) : c.render.toList = c.renderAfter := by
  simp [Clause.render, renderEventName, renderAfter, h]

theorem toList_render_of_some {name : String} (h : c.eventName = some name) :
    c.render.toList = name.toList ++ ':' :: ':' :: c.renderAfter := by
  simp [Clause.render, renderEventName, renderAfter, h]

theorem Legible.spelledAfter (h : c.Legible) : SpelledAfter c.eventName c.renderAfter c := by
  have hs : SpelledAfter c.eventName _ _ :=
    .mk h.property c.operator.spelled_spelling (Literal.spelled_render h.literal)
  have hlit : Literal.ofText (.ofList c.literal.text.toList) = c.literal :=
    Literal.ext_text String.ofList_toList
  rwa [String.ofList_toList, hlit] at hs

/-- **A legible clause is spelled by its rendering.** -/
theorem Legible.spelled (h : c.Legible) : Spelled c.render.toList c := by
  have hs := h.spelledAfter
  cases hn : c.eventName with
  | none =>
    rw [toList_render_of_none hn]
    rw [hn] at hs
    exact .unnamed hs
  | some name =>
    rw [toList_render_of_some hn]
    rw [hn, ← String.ofList_toList (s := name)] at hs
    exact .named (h.eventName name hn) hs

/-- Spelled clauses have no blanks around them. -/
theorem Spelled.trim_eq_self (h : Spelled s c) : trim s = s := by
  have hafter : ∀ {name r}, SpelledAfter name r c →
      StopsAt isBlank r ∧ StopsAt isBlank r.reverse := by
    intro name r h
    refine ⟨h.stopsAt fun _ hc => isBlank_of_inProperty hc, ?_⟩
    cases h with
    | mk hp ho hl =>
      rw [← List.append_assoc, List.reverse_append]
      exact hl.stopsAt_isBlank.2.append (List.reverse_ne_nil_iff.2 hl.ne_nil)
  cases h with
  | unnamed h => exact Text.trim_eq_self (hafter h).1 (hafter h).2
  | named hn h =>
    refine Text.trim_eq_self (StopsAt.append (stopsAt_of_forall fun c hc => ?_) hn.ne_nil) ?_
    · exact (inEventName_iff.1 (hn.chars c hc)).1
    · rw [List.append_cons, List.append_cons, List.reverse_append]
      exact (hafter h).2.append (List.reverse_ne_nil_iff.2 h.ne_nil)

/-- **The rendering of a legible clause is read back.** -/
theorem Legible.read_render (h : c.Legible) : Clause.read c.render.toList = .ok c := by
  rw [read_eq_ok_iff, h.spelled.trim_eq_self]
  exact h.spelled

/-- **Rendering a clause and reading it again changes nothing**, for all clauses that are read, and these are
the legible ones. The text need not be one token: the event name may hold marks and a quote of its own. -/
theorem read_render_of_read :
    (∀ t c, read t = .ok c →
      read c.render.toList = .ok c ∧ (read c.render.toList).map render = .ok c.render) ∧
    ∀ c : Clause, (∃ t, read t = .ok c) ↔ c.Legible := by
  have hlegible : ∀ {t c}, read t = .ok c → c.Legible := by
    intro t c h
    exact (read_eq_ok_iff.1 h).legible
  constructor
  · intro t c h
    have hback := (hlegible h).read_render
    refine ⟨hback, ?_⟩
    rw [hback]
    rfl
  · intro c
    constructor
    · rintro ⟨t, h⟩
      exact hlegible h
    · intro h
      exact ⟨_, h.read_render⟩

/-- A clause that a scan does not keep in one piece: the quote in its event name is never closed, and a
parenthesis and connectives stand outside of quotes. -/
theorem read_render_of_read_unscanned :
    let c : Clause := ⟨some "q\"(||", "Depth", .equal, .ofText "a&&b)"⟩
    Token.scan "q\"(||::Depth=a&&b)".toList = .error (.openQuote 1) ∧
      read "q\"(||::Depth=a&&b)".toList = .ok c ∧ read "q\"(||::Depth == \"a&&b)\"".toList = .ok c := by
  intro c
  have hscan : Token.scan "q\"(||::Depth=a&&b)".toList = .error (.openQuote 1) := by rfl
  have hread : read "q\"(||::Depth=a&&b)".toList = .ok c := by rfl
  have hrender : c.render = "q\"(||::Depth == \"a&&b)\"" := by decide +kernel
  refine ⟨hscan, hread, ?_⟩
  rw [← hrender]
  exact (read_render_of_read.1 _ c hread).1

/-- The rendering of a well-formed clause has no marks, and its quotes come in pairs. -/
theorem WellFormed.unmarked_render (h : c.WellFormed) :
    Unmarked c.render.toList ∧ QuotesClosed c.render.toList := by
  have hafter : Unmarked c.renderAfter :=
    ((Literal.unmarked_render h.literal).append_of_not_special
      c.operator.spelled_spelling.not_special).append_of_not_special h.property.not_special
  have hquotes := h.spelledAfter.quotesClosed
  cases hn : c.eventName with
  | none =>
    rw [toList_render_of_none hn]
    exact ⟨hafter, hquotes⟩
  | some name =>
    obtain ⟨hu, hq⟩ := h.unmarked name hn
    rw [toList_render_of_some hn]
    have hcolons : ∀ c ∈ [':', ':'], special c = false := by
      intro c hc
      rcases List.mem_pair.1 hc with rfl | rfl <;> decide
    constructor
    · -- the colons after the name do not complete a connective
      refine hu.append (hafter.append_of_not_special hcolons) hq fun k _ hk => ?_
      cases k <;> simp [Connective.char] at hk
    · rw [quotesClosed_append hq]
      exact (quotesClosed_append (quotesClosed_of_not_special hcolons)).2 hquotes

/-- **The rendering of a well-formed clause is one token.** -/
theorem WellFormed.scan_render (h : c.WellFormed) :
    Token.scan c.render.toList = .ok [.clause c.render.toList] := by
  obtain ⟨hu, hq⟩ := h.unmarked_render
  rw [scan_of_unmarked hu hq, Scan.foundWith_def, List.reverse_reverse, h.spelled.trim_eq_self,
    if_neg (mt List.isEmpty_iff.1 h.spelled.ne_nil)]

end Clause

end EventSieve
