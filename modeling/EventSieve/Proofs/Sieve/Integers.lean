import EventSieve.Proofs.Clause.WellFormed
import EventSieve.Proofs.Event.Shapes
import EventSieve.Proofs.Expr.Influence
import EventSieve.Proofs.Number.Integers
import EventSieve.Proofs.Number.Order
import EventSieve.Proofs.Sieve.Composition

/-!
# Integers from end to end

A filter that compares a property with an integer is written as a text, and the property of an event
is an integer that is printed before it is compared.

* `TypedValue.integer?`: the integer that a value is.
* `Clause.Spelled.reads`: a text that spells a clause, without marks, is read as that clause.
* `Sieve.accepts_of_spelled`: the verdict of such a filter on an event that has the property.
* `Sieve.accepts_integer`: **the filter orders the two integers**, however the literal is spelled.
-/

namespace EventSieve

open Text

/-- The integer that a value is, signed or not. -/
def TypedValue.integer? : TypedValue → Option ℤ
  | int v => some v.toInt
  | uint v => some v.toNat
  | text _ | float _ | bool _ => none

variable {ε : Type} [EventLike ε] {t property before after s : List Char} {op : Operator}
  {value : TypedValue} {v w : ℤ} {c : Clause} {name key actual : String} {fields : List Field}

/-- An integer is printed so that its text spells it. -/
theorem TypedValue.read?_spelling (h : value.integer? = some v) :
    Number.read? value.spelling.toList = some (.integer v) := by
  have hread : ∀ u : ℤ, Number.fitsWord u = true →
      Number.read? (String.ofList (integerText u)).toList = some (.integer u) := by
    intro u hu
    rw [String.toList_ofList]
    exact Number.read?_of_spellsInteger (Number.spellsInteger_integerText u) hu
  cases value with
  | int x =>
    obtain rfl := Option.some.inj h
    have hle := x.le_toInt
    have hlt := x.toInt_lt
    apply hread
    rw [Number.fitsWord_iff]
    omega
  | uint x =>
    obtain rfl := Option.some.inj h
    have hlt := x.toNat_lt
    apply hread
    rw [Number.fitsWord_iff]
    omega
  | text s => exact nomatch h
  | float x => exact nomatch h
  | bool b => exact nomatch h

/-- A look-up finds the text of a key when all pairs of the key have that text. -/
theorem lookup_eq_some_of_forall {pairs : List (String × String)} {text : String} (hmem : (key, text) ∈ pairs)
    (h : ∀ pair ∈ pairs, pair.1 = key → pair.2 = text) : pairs.lookup key = some text := by
  cases hfound : pairs.lookup key with
  | none =>
    have hne := List.lookup_eq_none_iff.1 hfound _ hmem
    exact absurd rfl (bne_iff_ne.1 hne)
  | some found =>
    obtain ⟨front, rest, rfl, -⟩ := List.lookup_eq_some_iff.1 hfound
    exact congrArg some (h (key, found) (List.mem_append_right _ List.mem_cons_self) rfl)

/-- In a row a value is found when all fields of its name have it. -/
theorem TypedRow.get?_of_forall (hmem : (key, some value) ∈ fields)
    (h : ∀ field ∈ fields, field.1 = key → field.2 = some value) :
    (TypedRow.ofFields name fields).get? key = some value.spelling := by
  induction fields with
  | nil => exact absurd hmem List.not_mem_nil
  | cons field fields ih =>
    rw [get?_ofFields_cons]
    by_cases hkey : field.1 = key
    · rw [if_pos hkey, h field List.mem_cons_self hkey]
      rfl
    · have hrest : (key, some value) ∈ fields := by
        rcases List.mem_cons.1 hmem with rfl | hrest
        · exact absurd rfl hkey
        · exact hrest
      rw [if_neg hkey]
      exact ih hrest fun f hf => h f (List.mem_cons_of_mem _ hf)

/-- **A field's value is found in all events of its list**, when no field of its name has another one. -/
theorem property?_of_mem (name : String) (hmem : (key, some value) ∈ fields)
    (h : ∀ field ∈ fields, field.1 = key → field.2 = some value) :
    EventLike.property? (TypedRow.ofFields name fields) key = some value.spelling ∧
    EventLike.property? (NamedMap.ofFields name fields) key = some value.spelling ∧
    EventLike.property? (Record.ofFields name fields) key = some value.spelling ∧
    EventLike.property? (NamedMap.ofFields name fields).toRecord key = some value.spelling := by
  have hlast : (fieldTexts fields).reverse.lookup key = some value.spelling := by
    refine lookup_eq_some_of_forall ?_ fun pair hpair hkey => ?_
    · rw [List.mem_reverse]
      exact List.mem_filterMap.2 ⟨(key, some value), hmem, rfl⟩
    · obtain ⟨⟨k, found?⟩, hfield, hfound⟩ := List.mem_filterMap.1 (List.mem_reverse.1 hpair)
      obtain ⟨found, rfl, rfl⟩ := Option.map_eq_some_iff.1 hfound
      have hsame : some found = some value := h _ hfield hkey
      rw [Option.some.inj hsame]
  have hmap := (NamedMap.get?_ofFields name fields key).trans hlast
  refine ⟨TypedRow.get?_of_forall hmem h, hmap, ?_, ?_⟩
  · exact (Record.get?_ofFields name fields key).trans hlast
  · exact (Record.get?_ofMap _ _ key).trans hmap

/-- **A text that spells a clause and has no marks is read as that clause.** -/
theorem Clause.Spelled.reads (h : Spelled t c) (hu : Unmarked t) (hq : QuotesClosed t) :
    Expr.Reads .operand t (.clause c) := by
  have htrim := h.trim_eq_self
  have hscan : Token.scan t = .ok [.clause t] := by
    rw [scan_of_unmarked hu hq, Scan.foundWith_def, List.reverse_reverse, htrim,
      if_neg (mt List.isEmpty_iff.1 h.ne_nil)]
  refine ⟨_, hscan, .clause ?_⟩
  rw [read_eq_ok_iff, htrim]
  exact h

/-- The symbol that a numeric operator is rendered as spells it. -/
theorem Operator.spelling_mem_symbols (h : op.comparesNumbers = true) :
    op.spelling.toList ∈ op.symbols := by
  cases op with
  | equal => cases h
  | notEqual => cases h
  | contains => cases h
  | _ => decide

/-- A spelling of an integer is a bare literal. -/
theorem Number.SpellsInteger.spelled (h : Number.SpellsInteger s w) : Literal.Spelled s s := by
  refine .bare h.ne_nil fun c hc => ?_
  rcases h.mem hc with hdigit | rfl | rfl | rfl
  · have hquote : c ≠ '"' := ne_of_isDigit hdigit (by decide)
    have hname := (inEventName_iff.1 (inEventName_of_inProperty (inProperty_of_isDigit hdigit)))
    exact inLiteral_iff.2 ⟨hquote, hname.2, hname.1⟩
  · decide
  · decide
  · decide

theorem Number.SpellsInteger.not_special (h : Number.SpellsInteger s w) : ∀ c ∈ s, special c = false := by
  intro c hc
  rcases h.mem hc with hdigit | rfl | rfl | rfl
  · exact special_of_inProperty (inProperty_of_isDigit hdigit)
  · decide
  · decide
  · decide

namespace Sieve

/-- **A property, a numeric operator and a bare literal, with any blanks between them, are a filter**:
it accepts the events whose property the operator relates to the literal. -/
theorem accepts_of_spelled (hproperty : IsProperty property) (hop : op.comparesNumbers = true)
    (hbefore : Blank before) (hafter : Blank after) (hs : Literal.Spelled s s) (hu : Unmarked s) :
    ∃ sieve : Sieve,
      ofText (.ofList (property ++ (before ++ op.spelling.toList ++ after ++ s))) = .ok sieve ∧
      ∀ {ε : Type} [EventLike ε] (event : ε) (actual : String),
        EventLike.property? event (.ofList property) = some actual →
        sieve.accepts event = op.relates actual (.ofText (.ofList s)) := by
  have ho : op.Spelled (before ++ op.spelling.toList ++ after) :=
    .symbol (Operator.spelling_mem_symbols hop) hbefore hafter
  let c : Clause := ⟨none, .ofList property, op, .ofText (.ofList s)⟩
  have hspelled : Clause.Spelled (property ++ (before ++ op.spelling.toList ++ after ++ s)) c :=
    .unnamed (.mk hproperty ho hs)
  have hunmarked : Unmarked (property ++ (before ++ op.spelling.toList ++ after ++ s)) :=
    (hu.append_of_not_special ho.not_special).append_of_not_special hproperty.not_special
  have hquotes : QuotesClosed (property ++ (before ++ op.spelling.toList ++ after ++ s)) := by
    rw [quotesClosed_append (quotesClosed_of_not_special hproperty.not_special),
      quotesClosed_append (quotesClosed_of_not_special ho.not_special)]
    exact hs.quotesClosed
  have hread := Expr.readChars_eq_ok_iff.2 (hspelled.reads hunmarked hquotes).toLevel
  refine ⟨⟨.ofList (property ++ (before ++ op.spelling.toList ++ after ++ s)), .clause c⟩, ?_, ?_⟩
  · rw [ofText_eq_ok_iff]
    refine ⟨rfl, ?_⟩
    rw [Expr.read, String.toList_ofList]
    exact hread
  · intro ε _ event actual hactual
    change Expr.holdsOf (.clause c) event = _
    rw [Expr.holdsOf_eq_denote]
    change (c.admitsName (EventLike.name event) &&
      (EventLike.property? event c.property).any (op.relates · c.literal)) = _
    rw [hactual]
    rfl

/-- **Integers are compared as integers, from end to end.** A property, a numeric operator and a spelling
of an integer that 128 bits hold, with any blanks between them, are a filter; it accepts an event whose
property is an integer, signed or not, of 64 bits exactly if the operator orders the two integers so,
whichever kind of event it is. The other properties of the event may be anything. -/
theorem accepts_integer (hproperty : IsProperty property) (hop : op.comparesNumbers = true)
    (hbefore : Blank before) (hafter : Blank after) (hs : Number.SpellsInteger s w)
    (hw : -2 ^ 127 ≤ w ∧ w < 2 ^ 127) (hv : value.integer? = some v) :
    ∃ sieve : Sieve,
      ofText (.ofList (property ++ (before ++ op.spelling.toList ++ after ++ s))) = .ok sieve ∧
      ∀ (name : String) (fields : List Field), (.ofList property, some value) ∈ fields →
        (∀ field ∈ fields, field.1 = .ofList property → field.2 = some value) →
        (sieve.accepts (TypedRow.ofFields name fields) = true ↔ op.Orders v w) ∧
        (sieve.accepts (NamedMap.ofFields name fields) = true ↔ op.Orders v w) ∧
        (sieve.accepts (Record.ofFields name fields) = true ↔ op.Orders v w) ∧
        (sieve.accepts (NamedMap.ofFields name fields).toRecord = true ↔ op.Orders v w) := by
  obtain ⟨sieve, hsieve, hverdict⟩ := accepts_of_spelled hproperty hop hbefore hafter hs.spelled
    (unmarked_of_not_special hs.not_special)
  refine ⟨sieve, hsieve, fun name fields hmem hfields => ?_⟩
  -- both texts are read as the integers that they spell
  have hactual := TypedValue.read?_spelling hv
  have hliteral : (Literal.ofText (.ofList s)).number = some (.integer w) := by
    change Number.read? (String.ofList s).toList = _
    rw [String.toList_ofList]
    exact Number.read?_of_spellsInteger hs (Number.fitsWord_iff.2 hw)
  have hrelates : op.relates value.spelling (.ofText (.ofList s)) = true ↔ op.Orders v w := by
    rw [Operator.relates_iff hop hactual hliteral rfl rfl]
    exact op.orders_integers v w
  obtain ⟨hrow, hmap, hrecord, hcopy⟩ := property?_of_mem name hmem hfields
  rw [hverdict _ _ hrow, hverdict _ _ hmap, hverdict _ _ hrecord, hverdict _ _ hcopy]
  exact ⟨hrelates, hrelates, hrelates, hrelates⟩

/-- The largest unsigned integer is larger than the number before it, also when this one has a sign, zeros
and stray commas, which no double between them could tell. -/
theorem accepts_integer_largest :
    let fields : List Field := [("a", none), ("Id", some (.uint 0xFFFFFFFFFFFFFFFF)), ("a", some (.bool true))]
    ∃ sieve : Sieve, ofText "Id\t>+,018446744073709551,,614," = .ok sieve ∧
      sieve.accepts (TypedRow.ofFields "E" fields) = true ∧
      sieve.accepts (NamedMap.ofFields "E" fields) = true := by
  intro fields
  have hspells : Number.SpellsInteger "+,018446744073709551,,614,".toList 18446744073709551614 :=
    @Number.SpellsInteger.mk _ _ "018446744073709551614".toList _ .plus (by decide) (by decide)
      (by decide)
  have hblank : Blank "\t".toList ∧ Blank [] := by
    unfold Blank
    decide
  have hproperty : IsProperty "Id".toList := ⟨by decide, by decide⟩
  have hnumeric : Operator.greater.comparesNumbers = true := rfl
  have hvalue : (TypedValue.uint 0xFFFFFFFFFFFFFFFF).integer? = some 18446744073709551615 := rfl
  obtain ⟨sieve, hsieve, hverdict⟩ :=
    accepts_integer hproperty hnumeric hblank.1 hblank.2 hspells (by decide) hvalue
  have hmem : ("Id", some (.uint 0xFFFFFFFFFFFFFFFF)) ∈ fields := by simp [fields]
  obtain ⟨hrow, hmap, -⟩ := hverdict "E" fields hmem (by simp [fields])
  have horders : Operator.greater.Orders (18446744073709551615 : ℤ) 18446744073709551614 := by
    unfold Operator.Orders
    decide
  exact ⟨sieve, hsieve, hrow.2 horders, hmap.2 horders⟩

end Sieve

end EventSieve
