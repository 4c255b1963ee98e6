import EventSieve.Proofs.Json.Items

/-!
# Values of any kind and their spellings

* `UnsignedSpelled`, `WellFormed`: the texts that are numbers without a sign, and that are values, of any nesting.
* `Leads`: skipping goes from one place to another. Over an item it leads from the place before the value to
  the place after it, with the containers around it as they were.
* `WellFormed.passed`, by induction on the nesting: **skipping leads from before a value to after it.**
* `skipValue_finds`: **every well-formed value is skipped.**
* `readString_reads`, `readBoolean_reads`, `readNull_reads`: scalars of a given type.
-/

namespace EventSieve.Json

open Reading

variable {c : Char} {sp sp' v t ds body : List Char} {tail s rest : Source} {bound : ℕ}

/-- One or more decimal digits. -/
def Digits (ds : List Char) : Prop := ds ≠ [] ∧ ∀ c ∈ ds, c.isDigit = true

/-- The fraction of a number, if there is one. -/
inductive FractionSpelled : List Char → Prop
  | none : FractionSpelled []
  | some {ds : List Char} : Digits ds → FractionSpelled ('.' :: ds)

/-- The exponent of a number, if there is one. -/
inductive ExponentSpelled : List Char → Prop
  | none : ExponentSpelled []
  | some {e : Char} {sign ds : List Char} : e ∈ ['e', 'E'] → sign ∈ [[], ['+'], ['-']] → Digits ds →
      ExponentSpelled (e :: (sign ++ ds))

/-- A number without its sign: no zero stands before other digits of the whole part. -/
inductive UnsignedSpelled : List Char → Prop
  | mk {whole fraction exponent : List Char} : Digits whole → (whole = ['0'] ∨ whole.head? ≠ some '0') →
      FractionSpelled fraction → ExponentSpelled exponent →
      UnsignedSpelled (whole ++ (fraction ++ exponent))

/-- A member of an object whose key and value do not matter, with the text of the value. -/
inductive MemberShaped : List Char → List Char → Prop
  | mk {body sp sp' v : List Char} : Skippable body → Space sp → Space sp' →
      MemberShaped ('"' :: (body ++ '"' :: (sp ++ ':' :: (sp' ++ v)))) v

/-- The texts of values, without blanks around them. -/
inductive WellFormed : List Char → Prop
  | word {v : List Char} : v ∈ ["null".toList, "true".toList, "false".toList] → WellFormed v
  | unsigned {v : List Char} : UnsignedSpelled v → WellFormed v
  | negative {v : List Char} : UnsignedSpelled v → WellFormed ('-' :: v)
  | string {body : List Char} : Skippable body → WellFormed ('"' :: (body ++ ['"']))
  | array {t : List Char} {vs : List (List Char)} : Items ']' Eq true t vs → (∀ v ∈ vs, WellFormed v) →
      WellFormed ('[' :: t)
  | object {t : List Char} {vs : List (List Char)} : Items '\x7d' MemberShaped true t vs →
      (∀ v ∈ vs, WellFormed v) → WellFormed ('\x7b' :: t)

/-- A document that does not go on with a digit. -/
def EndsDigits (s : Source) : Prop := ∀ u, s.head? = some u → isDigitUnit u = false

theorem Delimited.endsDigits (h : Delimited s) : EndsDigits s := by
  intro u hu
  obtain ⟨c, hc, rfl⟩ := h u hu
  have hall : ∀ c ∈ [' ', '\t', '\n', '\r', ',', ']', '\x7d'], isDigitUnit (some c) = false := by decide
  exact hall c hc

theorem endsDigits_cons (hc : c.isDigit = false) : EndsDigits (some c :: s) := by
  intro u hu
  obtain rfl : some c = u := Option.some.inj hu
  exact hc

theorem digitsOf_units (hds : ∀ c ∈ ds, c.isDigit = true) (hs : EndsDigits s) :
    digitsOf (units ds ++ s) = ds ∧ afterDigits (units ds ++ s) = s := by
  have hrun : (units ds ++ s).takeWhile isDigitUnit = units ds ∧
      (units ds ++ s).dropWhile isDigitUnit = s := by
    induction ds with
    | nil =>
      cases s with
      | nil => exact ⟨rfl, rfl⟩
      | cons u s =>
        have hu : isDigitUnit u = false := hs u rfl
        constructor
        · rw [units_nil, List.nil_append, List.takeWhile_cons, hu]
          rfl
        · rw [units_nil, List.nil_append, List.dropWhile_cons, hu]
          rfl
    | cons c ds ih =>
      have hc : isDigitUnit (some c) = true := hds c List.mem_cons_self
      obtain ⟨htake, hdrop⟩ := ih fun d hd => hds d (List.mem_cons_of_mem _ hd)
      rw [units_cons, List.cons_append, List.takeWhile_cons, List.dropWhile_cons, hc, if_pos rfl,
        if_pos rfl, htake, hdrop]
      exact ⟨rfl, rfl⟩
  unfold digitsOf afterDigits
  rw [hrun.1, hrun.2]
  refine ⟨?_, rfl⟩
  unfold units
  rw [List.filterMap_map]
  exact List.filterMap_some

theorem readDigits_finds (hds : Digits ds) (hs : EndsDigits s) : (readDigits (units ds ++ s)).Finds ds s := by
  obtain ⟨hdigits, hafter⟩ := digitsOf_units hds.2 hs
  unfold readDigits
  split
  · next h =>
    rw [hdigits] at h
    exact absurd h hds.1
  · next c digits h =>
    have hlength := length_afterDigits_lt h
    rw [hdigits] at h
    subst h
    rw [hafter] at hlength
    refine ⟨hlength, ?_⟩
    simp only [hafter]

theorem readWhole_finds (hds : Digits ds) (hzero : ds = ['0'] ∨ ds.head? ≠ some '0') (hs : EndsDigits s) :
    (readWhole (units ds ++ s)).Finds ds s := by
  refine (readDigits_finds hds hs).check ?_
  -- a zero with digits after it is what the spelling excludes
  split
  · next d digits =>
    rcases hzero with hzero | hzero
    · exact absurd (congrArg List.length hzero) (by simp)
    · exact absurd rfl hzero
  · rfl

theorem readOptionalFraction_none (hs : s.head? ≠ some (some '.')) : (readOptionalFraction s).Finds [] s := by
  unfold readOptionalFraction
  split
  · exact absurd rfl hs
  · exact here_finds [] s

theorem readOptionalExponent_none (hs : Delimited s) : (readOptionalExponent s).Finds none s := by
  have hne : ∀ c, s.head? = some (some c) → c ≠ 'e' ∧ c ≠ 'E' := by
    intro c hc
    obtain ⟨d, hd, heq⟩ := hs _ hc
    obtain rfl := Option.some.inj heq
    have hall : ∀ c ∈ [' ', '\t', '\n', '\r', ',', ']', '\x7d'], c ≠ 'e' ∧ c ≠ 'E' := by decide
    exact hall c hd
  unfold readOptionalExponent
  split
  · exact absurd rfl (hne 'e' rfl).1
  · exact absurd rfl (hne 'E' rfl).2
  · exact here_finds none s

/-- Without a sign the digits of an exponent come first. -/
theorem readExponent_unsigned (hs : ∀ c, s.head? = some (some c) → c ≠ '-' ∧ c ≠ '+')
    (h : (readDigits s).Finds ds rest) : (readExponent s).Finds (signedValue false ds) rest := by
  unfold readExponent
  split
  · exact absurd rfl (hs '-' rfl).1
  · exact absurd rfl (hs '+' rfl).2
  · exact h.map _

/-- A digit differs from every character that is none. -/
theorem ne_of_digit {d : Char} (hc : c.isDigit = true) (hd : d.isDigit = false) : c ≠ d := by
  rintro rfl
  rw [hd] at hc
  exact Bool.false_ne_true hc

/-- The exponent of a number is passed over. -/
theorem readOptionalExponent_finds (h : ExponentSpelled t) (hs : Delimited s) :
    ∃ power, (readOptionalExponent (units t ++ s)).Finds power s := by
  cases h with
  | none => exact ⟨none, readOptionalExponent_none hs⟩
  | @some e sign ds he hsign hds =>
    have hfound : ∃ power, (readExponent (units (sign ++ ds) ++ s)).Finds power s := by
      have hdigits := readDigits_finds hds hs.endsDigits
      rw [units_append, List.append_assoc]
      rcases List.mem_cons.1 hsign with rfl | hsign
      · -- a digit comes first, and no sign
        obtain ⟨c, ds, rfl⟩ := List.exists_cons_of_ne_nil hds.1
        refine ⟨_, readExponent_unsigned (fun d hd => ?_) hdigits⟩
        obtain rfl : c = d := Option.some.inj (Option.some.inj hd)
        have hc := hds.2 c List.mem_cons_self
        exact ⟨ne_of_digit hc (by decide), ne_of_digit hc (by decide)⟩
      · rcases List.mem_pair.1 hsign with rfl | rfl
        · exact ⟨_, (hdigits.map _).relax⟩
        · exact ⟨_, (hdigits.map _).relax⟩
    obtain ⟨power, hpower⟩ := hfound
    rcases List.mem_pair.1 he with rfl | rfl
    · exact ⟨_, (hpower.map some).relax.relax⟩
    · exact ⟨_, (hpower.map some).relax.relax⟩

theorem ExponentSpelled.endsDigits (h : ExponentSpelled t) (hs : Delimited s) : EndsDigits (units t ++ s) := by
  cases h with
  | none => exact hs.endsDigits
  | some he hsign hds =>
    refine endsDigits_cons ?_
    rcases List.mem_pair.1 he with rfl | rfl
    · decide
    · decide

/-- **A number is skipped.** -/
theorem skipNumber_finds (h : UnsignedSpelled v) (hs : Delimited tail) :
    (skipNumber (units v ++ tail)).Finds () tail := by
  cases h with
  | @mk whole fraction exponent hwhole hzero hfraction hexponent =>
    obtain ⟨power, hpower⟩ := readOptionalExponent_finds hexponent hs
    have hends := hexponent.endsDigits hs
    rw [units_append, units_append, List.append_assoc, List.append_assoc]
    cases hfraction with
    | none =>
      have hnext : (units exponent ++ tail).head? ≠ some (some '.') := by
        cases hexponent with
        | none =>
          intro hpoint
          obtain ⟨c, hc, heq⟩ := hs _ hpoint
          obtain rfl := Option.some.inj heq
          exact absurd hc (by decide)
        | some he hsign hds =>
          rintro hpoint
          obtain rfl : _ = '.' := Option.some.inj (Option.some.inj hpoint)
          exact absurd he (by decide)
      refine Finds.orMalformed ((readWhole_finds hwhole hzero hends).andAlso ?_)
      exact (readOptionalFraction_none hnext).andAlso (hpower.map _)
    | @some ds hds =>
      have hpoint : EndsDigits (units ('.' :: ds) ++ (units exponent ++ tail)) := endsDigits_cons (by decide)
      refine Finds.orMalformed ((readWhole_finds hwhole hzero hpoint).andAlso ?_)
      have hread : (readOptionalFraction (units ('.' :: ds) ++ (units exponent ++ tail))).Finds ds
          (units exponent ++ tail) := (readDigits_finds hds hends).relax.relax
      exact hread.andAlso (hpower.map _)

/-! ## Skipping -/

theorem UnsignedSpelled.starts (h : UnsignedSpelled v) : ∃ c t, v = c :: t ∧ c.isDigit = true := by
  cases h with
  | @mk whole _ _ hwhole _ _ _ =>
    obtain ⟨c, whole, rfl⟩ := List.exists_cons_of_ne_nil hwhole.1
    exact ⟨c, _, rfl, hwhole.2 c List.mem_cons_self⟩

/-- A digit is neither a blank nor a bracket. -/
theorem solid_of_isDigit (hc : c.isDigit = true) : Solid c ∧ ¬IsCloser c := by
  have hall : ∀ d ∈ [' ', '\t', '\n', '\r', ']', '\x7d'], d.isDigit = false := by decide
  constructor
  · intro hmem
    exact ne_of_digit hc (hall c (List.mem_append_left [']', '\x7d'] hmem)) rfl
  · intro hmem
    exact ne_of_digit hc (hall c (List.mem_append_right [' ', '\t', '\n', '\r'] hmem)) rfl

theorem WellFormed.starts (h : WellFormed v) : Starts v := by
  have hstarts : ∀ {c t}, c ∈ ['n', 't', 'f', '-', '"', '[', '\x7b'] → Starts (c :: t) := by
    intro c t hc
    have hall : ∀ c ∈ ['n', 't', 'f', '-', '"', '[', '\x7b'], Solid c ∧ c ∉ [']', '\x7d'] := by decide
    exact ⟨c, t, rfl, hall c hc⟩
  cases h with
  | word hv =>
    simp only [List.mem_cons, List.not_mem_nil, or_false] at hv
    rcases hv with rfl | rfl | rfl
    · exact hstarts (by decide)
    · exact hstarts (by decide)
    · exact hstarts (by decide)
  | unsigned hv =>
    obtain ⟨c, t, rfl, hc⟩ := hv.starts
    exact ⟨c, t, rfl, solid_of_isDigit hc⟩
  | negative hv => exact hstarts (by decide)
  | string hv => exact hstarts (by decide)
  | array hv _ => exact hstarts (by decide)
  | object hv _ => exact hstarts (by decide)

/-- Skipping goes from one place to another, within whatever bound. -/
def Leads (place : Place) (s : Source) (place' : Place) (s' : Source) : Prop :=
  ∀ bound (within : s.length < bound),
    ∃ within' : s'.length < bound, skipSteps bound place s within = skipSteps bound place' s' within'

section Leads

variable {place place' place'' : Place} {s' s'' : Source} {around : List Container} {container : Container}

theorem Leads.refl (place : Place) (s : Source) : Leads place s place s := fun _ within => ⟨within, rfl⟩

theorem Leads.trans (h : Leads place s place' s') (h' : Leads place' s' place'' s'') :
    Leads place s place'' s'' := by
  intro bound within
  obtain ⟨within', heq⟩ := h bound within
  obtain ⟨within'', heq'⟩ := h' bound within'
  exact ⟨within'', heq.trans heq'⟩

theorem leads_before (h : (skipBefore around s).Finds place rest) : Leads (.before around) s place rest := by
  intro bound within
  obtain ⟨hlength, heq⟩ := h
  refine ⟨Source.length_lt_trans hlength within, ?_⟩
  rw [skipSteps, heq]

theorem leads_after (h : (skipAfter container around s).Finds place rest) :
    Leads (.after (container :: around)) s place rest := by
  intro bound within
  obtain ⟨hlength, heq⟩ := h
  refine ⟨Source.length_lt_trans hlength within, ?_⟩
  rw [skipSteps, heq]

/-- Where a value is to come, one step goes into it, and from there skipping leads to its end. -/
def Passed (v : List Char) : Prop :=
  ∀ around sp tail, Space sp → Delimited tail → ∃ place rest,
    (skipBefore around (units (sp ++ v) ++ tail)).Finds place rest ∧
    Leads place rest (.after around) tail

theorem Passed.leads (h : Passed v) (around : List Container) (hsp : Space sp) (hs : Delimited tail) :
    Leads (.before around) (units (sp ++ v) ++ tail) (.after around) tail := by
  obtain ⟨place, rest, hbefore, hleads⟩ := h around sp tail hsp hs
  exact (leads_before hbefore).trans hleads

/-- A scalar is passed in one step. -/
theorem passed_scalar (hc : Solid c) (harray : c ≠ '[') (hobject : c ≠ '\x7b')
    (h : ∀ tail, Delimited tail → (skipScalar c (units t ++ tail)).Finds () tail) : Passed (c :: t) := by
  intro around sp tail hsp hs
  refine ⟨.after around, tail, ?_, Leads.refl _ _⟩
  rw [units_append_cons]
  refine (significant_finds hsp hc).andAlso ?_
  split
  · exact absurd rfl harray
  · exact absurd rfl hobject
  · exact (h tail hs).map _

/-- From the start of an item of a container to the start of its value. -/
def Entered (container : Container) (Item : List Char → List Char → Prop) : Prop :=
  ∀ m v, Item m v → Starts m ∧ ∀ around sp tail, Space sp → ∃ sp', Space sp' ∧
    (enterItem around container (units (sp ++ m) ++ tail)).Finds (.before (container :: around))
      (units (sp' ++ v) ++ tail)

theorem entered_element {P : List Char → Prop} (hP : ∀ v, P v → Starts v) :
    Entered .array fun m v => m = v ∧ P v := by
  rintro m v ⟨rfl, hm⟩
  refine ⟨hP m hm, fun around sp tail hsp => ⟨sp, hsp, ?_⟩⟩
  exact here_finds _ _

theorem entered_member : Entered .object MemberShaped := by
  rintro m v ⟨hbody, hcolon, hvalue⟩
  refine ⟨⟨_, _, rfl, by decide, by decide⟩, fun around sp tail hsp => ⟨_, hvalue, ?_⟩⟩
  refine Finds.relax (Finds.map (a := ()) ?_ _)
  rw [units_append_cons, units_append_cons, units_append_cons]
  refine (readMark_finds hsp (by decide)).andThen ?_
  exact (skipQuoted_finds hbody _).andThen (readMark_finds hcolon (by decide))

theorem solid_closer (container : Container) : Solid container.closer ∧ container.closer ≠ ',' := by
  cases container with
  | array => decide
  | object => decide

theorem isCloser_closer (container : Container) : IsCloser container.closer := by
  cases container with
  | array => decide
  | object => decide

variable {Item : List Char → List Char → Prop} {vs : List (List Char)}

/-- After an item, skipping leads over the other items out of the container. -/
theorem leads_items (hItem : Entered container Item) (h : Items container.closer Item false t vs)
    (hvs : ∀ v ∈ vs, Passed v) (around : List Container) (tail : Source) :
    Leads (.after (container :: around)) (units t ++ tail) (.after around) tail := by
  obtain ⟨hsolid, hcomma⟩ := solid_closer container
  -- by induction on the items that are left, of which none is the first one
  generalize hfirst : false = isFirst at h
  induction h with
  | done hsp =>
    apply leads_after
    rw [units_append_cons]
    refine (significant_finds hsp hsolid).andAlso ?_
    rw [if_neg hcomma, if_pos rfl]
    exact here_finds _ _
  | first => cases hfirst
  | @next sp sp' m t v vs hsp hsp' hm ht ih =>
    obtain ⟨-, henter⟩ := hItem m v hm
    obtain ⟨sp'', hsp'', hentered⟩ := henter around sp' (units t ++ tail) hsp'
    have hdelimited := ht.delimited (isCloser_closer container) tail
    have hafter : (skipAfter container around (units (sp ++ ',' :: (sp' ++ (m ++ t))) ++ tail)).Finds
        (.before (container :: around)) (units (sp'' ++ v) ++ (units t ++ tail)) := by
      rw [units_append_cons, units_append₃]
      refine (significant_finds hsp (by decide)).andAlso ?_
      rw [if_pos rfl]
      exact hentered
    have hvalue := (hvs v List.mem_cons_self).leads (container :: around) hsp'' hdelimited
    have hrest := ih (fun u hu => hvs u (List.mem_cons_of_mem _ hu)) rfl
    exact (leads_after hafter).trans (hvalue.trans hrest)

/-- After an opening bracket, skipping leads over the items out of the container. -/
theorem enterContainer_leads (hItem : Entered container Item) (h : Items container.closer Item true t vs)
    (hvs : ∀ v ∈ vs, Passed v) (around : List Container) (tail : Source) :
    ∃ place rest, (enterContainer around container (units t ++ tail)).Finds place rest ∧
      Leads place rest (.after around) tail := by
  obtain ⟨hsolid, hcomma⟩ := solid_closer container
  cases h with
  | done hsp =>
    refine ⟨.after around, tail, ?_, Leads.refl _ _⟩
    rw [units_append_cons]
    unfold enterContainer
    rw [peek_eq hsp hsolid]
    dsimp only
    rw [if_pos rfl]
    exact ((readMark_finds hsp hsolid).map _).relax
  | @first sp m t v vs hsp hm ht =>
    obtain ⟨hstarts, henter⟩ := hItem m v hm
    obtain ⟨sp', hsp', hentered⟩ := henter around sp (units t ++ tail) hsp
    obtain ⟨c, hpeek, hopen⟩ := peek_starts (t := t) hsp hstarts tail
    have hne : c ≠ container.closer := by
      rintro rfl
      exact hopen (isCloser_closer container)
    have hdelimited := ht.delimited (isCloser_closer container) tail
    refine ⟨.before (container :: around), units (sp' ++ v) ++ (units t ++ tail), ?_, ?_⟩
    · unfold enterContainer
      rw [hpeek]
      dsimp only
      rw [if_neg hne, units_append₃]
      exact hentered
    · have hvalue := (hvs v List.mem_cons_self).leads (container :: around) hsp' hdelimited
      exact hvalue.trans (leads_items hItem ht (fun u hu => hvs u (List.mem_cons_of_mem _ hu)) around tail)

/-- A number without a sign is passed in one step, by its first digit. -/
theorem passed_unsigned (h : UnsignedSpelled v) : Passed v := by
  obtain ⟨c, t, rfl, hc⟩ := h.starts
  refine passed_scalar (solid_of_isDigit hc).1 (ne_of_digit hc (by decide)) (ne_of_digit hc (by decide)) ?_
  intro tail hs
  have hnumber := skipNumber_finds h hs
  rw [units_cons, List.cons_append] at hnumber
  unfold skipScalar
  split
  · exact absurd hc (by decide)
  · exact absurd hc (by decide)
  · exact absurd hc (by decide)
  · exact absurd hc (by decide)
  · exact absurd hc (by decide)
  · rw [if_pos hc]
    exact hnumber

/-- **A value of any nesting is passed**: skipping leads from before it to after it. -/
theorem WellFormed.passed (h : WellFormed v) : Passed v := by
  -- skipping does not recurse, so what holds inside has to hold within any containers
  induction h with
  | word hv =>
    simp only [List.mem_cons, List.not_mem_nil, or_false] at hv
    rcases hv with rfl | rfl | rfl
    · exact passed_scalar (by decide) (by decide) (by decide) fun tail _ => readWord_finds ['u', 'l', 'l'] tail
    · exact passed_scalar (by decide) (by decide) (by decide) fun tail _ => readWord_finds ['r', 'u', 'e'] tail
    · exact passed_scalar (by decide) (by decide) (by decide) fun tail _ =>
        readWord_finds ['a', 'l', 's', 'e'] tail
  | unsigned hv => exact passed_unsigned hv
  | negative hv =>
    exact passed_scalar (by decide) (by decide) (by decide) fun tail hs => (skipNumber_finds hv hs).relax
  | @string body hbody =>
    refine passed_scalar (by decide) (by decide) (by decide) fun tail _ => ?_
    rw [units_append_cons]
    exact (skipQuoted_finds hbody tail).relax
  | @array t vs hitems hvs ih =>
    intro around sp tail hsp hs
    have hItem : Entered .array fun m v => m = v ∧ WellFormed v := entered_element fun _ hv => hv.starts
    obtain ⟨place, rest, henter, hleads⟩ :=
      enterContainer_leads hItem (hitems.of_mem hvs) ih around tail
    refine ⟨place, rest, ?_, hleads⟩
    rw [units_append_cons]
    exact (significant_finds hsp (by decide)).andAlso henter
  | @object t vs hitems hvs ih =>
    intro around sp tail hsp hs
    obtain ⟨place, rest, henter, hleads⟩ := enterContainer_leads entered_member hitems ih around tail
    refine ⟨place, rest, ?_, hleads⟩
    rw [units_append_cons]
    exact (significant_finds hsp (by decide)).andAlso henter

/-- **Every well-formed value is skipped.** -/
theorem skipValue_finds (h : WellFormed v) (hsp : Space sp) (hs : Delimited tail) :
    (skipValue (units (sp ++ v) ++ tail)).Finds () tail := by
  obtain ⟨place, rest, ⟨hlength, hbefore⟩, hleads⟩ := h.passed [] sp tail hsp hs
  obtain ⟨hlength', hsteps⟩ := hleads _ hlength
  unfold skipValue
  rw [hbefore]
  dsimp only
  rw [hsteps, skipSteps]
  exact ⟨_, rfl⟩

end Leads

/-- **A member that does not matter is skipped.** -/
theorem takesUp_skipped {α : Type} {member : α → String → (s : Source) → Reading α s.length} {known : α}
    {key : String} (hv : WellFormed v)
    (hmember : ∀ s, member known key s = (skipField s).map fun _ => known) :
    TakesUp member known (key, v) known := by
  intro sp sp' tail hsp hsp' htail
  rw [hmember, units_append_cons]
  refine Finds.map (a := ()) ?_ _
  exact (readMark_finds hsp (by decide)).andThen (skipValue_finds hv hsp' htail)

/-! ## Values of a given type -/

theorem readHead_array (hsp : Space sp) (t : List Char) (tail : Source) :
    (readHead (units (sp ++ '[' :: t) ++ tail)).Finds .array (units t ++ tail) := by
  rw [units_append_cons]
  exact (significant_finds hsp (by decide)).andAlso (here_finds _ _)

theorem readHead_object (hsp : Space sp) (t : List Char) (tail : Source) :
    (readHead (units (sp ++ '\x7b' :: t) ++ tail)).Finds .object (units t ++ tail) := by
  rw [units_append_cons]
  exact (significant_finds hsp (by decide)).andAlso (here_finds _ _)

theorem StringSpelled.starts {text : String} (h : StringSpelled v text) : Starts v := by
  cases h with
  | mk hbody => exact ⟨_, _, rfl, by decide, by decide⟩

/-- **A string is read** where a string is expected. -/
theorem readString_reads {text : String} (expected : String) (h : StringSpelled v text) :
    ReadsAs (readString expected) v text := by
  intro sp tail hsp hs
  cases h with
  | @mk body _ hbody =>
    rw [units_append_cons, units_append_cons]
    have hhead : (readHead (units sp ++ some '"' :: (units body ++ some '"' :: tail))).Finds (.text text) tail :=
      (significant_finds hsp (by decide)).andAlso ((readQuoted_finds hbody tail).map _).relax
    exact hhead.check rfl

/-- The word of a truth value. -/
def booleanWord (b : Bool) : List Char := if b then "true".toList else "false".toList

theorem starts_booleanWord (b : Bool) : Starts (booleanWord b) := by
  cases b with
  | true => exact ⟨'t', _, rfl, by decide, by decide⟩
  | false => exact ⟨'f', _, rfl, by decide, by decide⟩

/-- **A truth value is read** where one is expected. -/
theorem readBoolean_reads (b : Bool) : ReadsAs readBoolean (booleanWord b) b := by
  intro sp tail hsp hs
  rw [units_append, List.append_assoc]
  cases b with
  | true =>
    have hword := (readWord_finds ['r', 'u', 'e'] tail).map fun _ => Head.boolean true
    exact Finds.check ((significant_finds hsp (by decide)).andAlso hword) rfl
  | false =>
    have hword := (readWord_finds ['a', 'l', 's', 'e'] tail).map fun _ => Head.boolean false
    exact Finds.check ((significant_finds hsp (by decide)).andAlso hword) rfl

/-- `null` is read where it is expected. -/
theorem readNull_reads : ReadsAs readNull "null".toList () := by
  intro sp tail hsp hs
  rw [units_append, List.append_assoc]
  have hword := (readWord_finds ['u', 'l', 'l'] tail).map fun _ => Head.null
  exact Finds.check ((significant_finds hsp (by decide)).andAlso hword) rfl

end EventSieve.Json
