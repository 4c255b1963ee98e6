import EventSieve.Proofs.Clause.Characters
import EventSieve.Proofs.Text.Search

/-!
# The grammar of clauses

A clause is spelled `[EventName::]Property Operator Literal`. The grammar says which texts each part
can be, and nothing about the order in which a reader tries them.

* `IsEventName`, `IsProperty`, `Operator.Spelled`, `Literal.Spelled`: the parts.
* `Clause.Spelled`: the whole, without blanks around it.
* `Operator.Spelled.stopsAt`, `Literal.Spelled.stopsAt`: **each part ends by itself where the next one
  starts**, which is why a reader can take the longest run.
-/

namespace EventSieve

open Text

/-- An event's name: not empty, neither blanks nor operator characters, and when `::` follows, that
is the first `::`. -/
structure IsEventName (name : List Char) : Prop where
  ne_nil : name ≠ []
  chars : ∀ c ∈ name, inEventName c = true
  endsAtPair : EndsAtPair ':' ':' name

/-- A property's name. -/
structure IsProperty (p : List Char) : Prop where
  ne_nil : p ≠ []
  chars : ∀ c ∈ p, inProperty c = true

/-- The symbols that spell an operator. -/
def Operator.symbols : Operator → List (List Char)
  | equal => [['='], ['=', '=']]
  | notEqual => [['!', '=']]
  | less => [['<']]
  | lessEqual => [['<', '=']]
  | greater => [['>']]
  | greaterEqual => [['>', '=']]
  | contains => []

/-- The texts of an operator with the blanks around it. A symbol needs none, the word needs some
on both sides. -/
inductive Operator.Spelled : List Char → Operator → Prop
  | symbol {before s after : List Char} {o : Operator} : s ∈ o.symbols → Blank before →
      Blank after → Spelled (before ++ s ++ after) o
  | word {before s after : List Char} : s.map Char.toLower = Clause.containsWord →
      Blank before → before ≠ [] → Blank after → after ≠ [] →
      Spelled (before ++ s ++ after) .contains

/-- Whether a character may occur in a bare literal. -/
def inLiteral (c : Char) : Bool := !(c == '"' || inOperator c || isBlank c)

/-- The spellings of a literal's text: between quotes, or bare. -/
inductive Literal.Spelled : List Char → List Char → Prop
  | quoted {text : List Char} : '"' ∉ text → Spelled ('"' :: text ++ ['"']) text
  | bare {text : List Char} : text ≠ [] → (∀ c ∈ text, inLiteral c = true) → Spelled text text

/-- The spellings of a clause's property, operator and literal. -/
inductive Clause.SpelledAfter (name : Option String) : List Char → Clause → Prop
  | mk {p o l text : List Char} {op : Operator} : IsProperty p → op.Spelled o →
      Literal.Spelled l text →
      SpelledAfter name (p ++ (o ++ l)) ⟨name, .ofList p, op, .ofText (.ofList text)⟩

/-- The spellings of a clause. -/
inductive Clause.Spelled : List Char → Clause → Prop
  | unnamed {s : List Char} {c : Clause} : SpelledAfter none s c → Spelled s c
  | named {name s : List Char} {c : Clause} : IsEventName name →
      SpelledAfter (some (.ofList name)) s c → Spelled (name ++ ':' :: ':' :: s) c

variable {p s o l r text : List Char} {op : Operator} {c : Clause}

theorem IsProperty.inEventName (h : IsProperty p) : ∀ c ∈ p, inEventName c = true :=
  fun c hc => inEventName_of_inProperty (h.chars c hc)

theorem IsProperty.colon_not_mem (h : IsProperty p) : ':' ∉ p :=
  fun hc => ne_colon_of_inProperty (h.chars _ hc) rfl

/-- The eight symbols consist of operator characters. -/
theorem Operator.inOperator_of_mem_symbols (h : s ∈ op.symbols) : ∀ c ∈ s, inOperator c = true := by
  have hall : op.symbols.all (·.all inOperator) = true := by
    cases op <;> decide
  exact List.all_eq_true.1 (List.all_eq_true.1 hall s h)

theorem Operator.ne_nil_of_mem_symbols (h : s ∈ op.symbols) : s ≠ [] := by
  have hall : ∀ s ∈ op.symbols, s ≠ [] := by
    cases op <;> decide
  exact hall s h

theorem inProperty_of_toLower {c : Char} (h : inProperty c.toLower = true) :
    inProperty c = true := by
  unfold Char.toLower at h
  split at h
  · next hc =>
    have hu : c.isUpper = true := by
      unfold Char.isUpper
      simpa using hc
    have ha : c.isAlphanum = true := by
      change ((c.isUpper || c.isLower) || c.isDigit) = true
      rw [hu, Bool.true_or, Bool.true_or]
    simp [inProperty, isAlphanumeric_of_isAlphanum ha]
  · exact h

/-- The operator word is made of letters. -/
theorem inProperty_of_mem_word (h : s.map Char.toLower = Clause.containsWord) :
    ∀ c ∈ s, inProperty c = true := by
  intro c hc
  have hall : Clause.containsWord.all inProperty = true := by decide
  refine inProperty_of_toLower (List.all_eq_true.1 hall _ ?_)
  rw [← h]
  exact List.mem_map_of_mem hc

theorem Operator.Spelled.ne_nil (h : op.Spelled o) : o ≠ [] := by
  cases h with
  | symbol hs hb ha => simp [ne_nil_of_mem_symbols hs]
  | word hs hb hb' ha ha' => simp [hb']

/-- An operator starts with a blank or an operator character, so the name before it ends there. -/
theorem Operator.Spelled.stopsAt (h : op.Spelled o) : StopsAt inEventName (o ++ r) := by
  refine StopsAt.append ?_ h.ne_nil
  have hblank : ∀ {b t : List Char}, Blank b → b ≠ [] → StopsAt inEventName (b ++ t) := by
    intro b t hb hn
    refine StopsAt.append (stopsAt_of_forall fun c hc => ?_) hn
    rw [inEventName, hb c hc]
    rfl
  cases h with
  | @symbol before s after o hs hb ha =>
    rw [List.append_assoc]
    cases before with
    | nil =>
      rw [List.nil_append]
      refine StopsAt.append (stopsAt_of_forall fun c hc => ?_) (ne_nil_of_mem_symbols hs)
      rw [inEventName, inOperator_of_mem_symbols hs c hc, Bool.not_true, Bool.and_false]
    | cons b before => exact hblank hb (List.cons_ne_nil _ _)
  | word hs hb hb' ha ha' =>
    rw [List.append_assoc]
    exact hblank hb hb'

theorem Operator.Spelled.stopsAt_inProperty (h : op.Spelled o) : StopsAt inProperty (o ++ r) :=
  h.stopsAt.of_imp fun _ => inEventName_of_inProperty

theorem inLiteral_iff {c : Char} :
    inLiteral c = true ↔ c ≠ '"' ∧ inOperator c = false ∧ isBlank c = false := by
  simp [inLiteral, and_assoc]

/-- A literal starts and ends with a quote or with a character that may stand bare. -/
theorem Literal.Spelled.stopsAt (h : Literal.Spelled l text) {q : Char → Bool}
    (hq : q '"' = false) (hb : ∀ c, inLiteral c = true → q c = false) :
    StopsAt q l ∧ StopsAt q l.reverse := by
  cases h with
  | quoted ht =>
    rw [List.reverse_append]
    exact ⟨stopsAt_cons.2 hq, stopsAt_cons.2 hq⟩
  | bare hn ht =>
    refine ⟨stopsAt_of_forall fun c hc => hb c (ht c hc), stopsAt_of_forall fun c hc => ?_⟩
    exact hb c (ht c (List.mem_reverse.1 hc))

theorem Literal.Spelled.ne_nil (h : Literal.Spelled l text) : l ≠ [] := by
  cases h with
  | quoted ht => exact List.cons_ne_nil _ _
  | bare hn ht => exact hn

/-- A literal has no blanks around it. -/
theorem Literal.Spelled.stopsAt_isBlank (h : Literal.Spelled l text) :
    StopsAt isBlank l ∧ StopsAt isBlank l.reverse :=
  h.stopsAt (by decide) fun _ hc => (inLiteral_iff.1 hc).2.2

/-- A literal does not continue the operator before it. -/
theorem Literal.Spelled.stopsAt_inOperator (h : Literal.Spelled l text) : StopsAt inOperator l :=
  (h.stopsAt (by decide) fun _ hc => (inLiteral_iff.1 hc).2.1).1

end EventSieve
