import EventSieve.Gate.Config
import EventSieve.Proofs.Json.Values

/-!
# The texts of a list of definitions

* `ModeSpelled`, `FieldSpelled`, `DefinitionSpelled`, `DocumentSpelled`: the JSON texts that stand for a
  list of definitions, as objects with their members in any order and others among them, or as arrays.
* `definition_reads`: a definition is read from each of its texts.
* `Renders`, `Definition.ofJson_of_renders`: **a list of definitions is read from each of its renderings**,
  as a text or as bytes.
-/

namespace EventSieve

open Json Json.Reading

variable {v t sp : List Char} {m : Mode} {d : Definition} {ds : List Definition} {tail : Source}
  {ms : List (String × List Char)} {vs : List (List Char)}

/-- The texts of a mode: its word as a string, or an object of that word and `null`. -/
inductive ModeSpelled : List Char → Mode → Prop
  | word {v : List Char} {m : Mode} : StringSpelled v m.name → ModeSpelled v m
  | object {q sp₁ sp₂ sp₃ sp₄ : List Char} {m : Mode} : StringSpelled q m.name → Space sp₁ → Space sp₂ →
      Space sp₃ → Space sp₄ →
      ModeSpelled ('\x7b' :: (sp₁ ++ (q ++ (sp₂ ++ ':' :: (sp₃ ++ ("null".toList ++ (sp₄ ++ ['\x7d']))))))) m

/-- The keys of a definition. -/
def definitionKeys : List String := ["name", "expression", "mode", "enabled"]

/-- A member of an object that stands for a definition: one of its fields, or any other key with any
value. -/
inductive FieldSpelled (d : Definition) : String × List Char → Prop
  | name {v : List Char} : StringSpelled v d.name → FieldSpelled d ("name", v)
  | expression {v : List Char} : StringSpelled v d.expression → FieldSpelled d ("expression", v)
  | mode {v : List Char} : ModeSpelled v d.mode → FieldSpelled d ("mode", v)
  | enabled : FieldSpelled d ("enabled", booleanWord d.enabled)
  | other {key : String} {v : List Char} : key ∉ definitionKeys → WellFormed v → FieldSpelled d (key, v)

/-- The members of an object that stands for a definition: no field comes twice, and only the mode and the
use may be missing, where they are the usual ones. -/
structure MembersSpelled (d : Definition) (ms : List (String × List Char)) : Prop where
  field : ∀ m ∈ ms, FieldSpelled d m
  once : ∀ key ∈ definitionKeys, (ms.map Prod.fst).count key ≤ 1
  name : "name" ∈ ms.map Prod.fst
  expression : "expression" ∈ ms.map Prod.fst
  mode : d.mode ≠ .including → "mode" ∈ ms.map Prod.fst
  enabled : d.enabled ≠ true → "enabled" ∈ ms.map Prod.fst

/-- The elements of an array that stands for a definition: its fields in order, where the last ones may be
missing that are the usual ones. -/
inductive ElementsSpelled (d : Definition) : List (List Char) → Prop
  | two {name expression : List Char} : StringSpelled name d.name → StringSpelled expression d.expression →
      d.mode = .including → d.enabled = true → ElementsSpelled d [name, expression]
  | three {name expression mode : List Char} : StringSpelled name d.name →
      StringSpelled expression d.expression → ModeSpelled mode d.mode → d.enabled = true →
      ElementsSpelled d [name, expression, mode]
  | four {name expression mode : List Char} : StringSpelled name d.name →
      StringSpelled expression d.expression → ModeSpelled mode d.mode →
      ElementsSpelled d [name, expression, mode, booleanWord d.enabled]

/-- The texts of a definition. -/
inductive DefinitionSpelled : List Char → Definition → Prop
  | object {t : List Char} {d : Definition} {ms : List (String × List Char)} :
      Items '\x7d' MemberSpelled true t ms → MembersSpelled d ms → DefinitionSpelled ('\x7b' :: t) d
  | array {t : List Char} {d : Definition} {vs : List (List Char)} :
      Texts true t vs → ElementsSpelled d vs → DefinitionSpelled ('[' :: t) d

/-- The texts of a list of definitions. -/
inductive ListSpelled : List Char → List Definition → Prop
  | mk {t : List Char} {ds : List Definition} : Items ']' DefinitionSpelled true t ds → ListSpelled ('[' :: t) ds

/-- A member of an object that stands for a document. -/
inductive DocumentFieldSpelled (ds : List Definition) : String × List Char → Prop
  | filters {v : List Char} : ListSpelled v ds → DocumentFieldSpelled ds ("filters", v)
  | other {key : String} {v : List Char} : key ≠ "filters" → WellFormed v → DocumentFieldSpelled ds (key, v)

/-- The texts of a document, without the blanks around it: an object or an array, where an empty list may be
missing. -/
inductive DocumentSpelled : List Char → List Definition → Prop
  | object {t : List Char} {ds : List Definition} {ms : List (String × List Char)} :
      Items '\x7d' MemberSpelled true t ms → (∀ m ∈ ms, DocumentFieldSpelled ds m) →
      (ms.map Prod.fst).count "filters" ≤ 1 → (ds ≠ [] → "filters" ∈ ms.map Prod.fst) →
      DocumentSpelled ('\x7b' :: t) ds
  | array {t v : List Char} {ds : List Definition} : Texts true t [v] → ListSpelled v ds →
      DocumentSpelled ('[' :: t) ds
  | missing {t : List Char} : Texts true t [] → DocumentSpelled ('[' :: t) []

/-- The texts that stand for a list of definitions: a document with blanks around it. -/
inductive Renders (text : String) (ds : List Definition) : Prop
  | mk {sp v sp' : List Char} : Space sp → DocumentSpelled v ds → Space sp' →
      text.toList = sp ++ (v ++ sp') → Renders text ds

theorem ModeSpelled.starts (h : ModeSpelled v m) : Starts v := by
  cases h with
  | word hv => exact hv.starts
  | object => exact ⟨_, _, rfl, by decide, by decide⟩

theorem readName_finds (hsp : Space sp) (h : StringSpelled v m.name) (tail : Source) :
    (Mode.readName (units (sp ++ v) ++ tail)).Finds m tail := by
  have hword : Mode.ofWord m.name = .ok m := by
    unfold Mode.ofWord
    rw [Mode.ofName?_name]
  exact (readKey_finds hsp h tail).check hword

/-- **A mode is read from each of its texts.** -/
theorem mode_reads (h : ModeSpelled v m) : ReadsAs Mode.read v m := by
  intro sp tail hsp htail
  cases h with
  | word hv =>
    have hname := readName_finds hsp hv tail
    cases hv with
    | mk hbody =>
      unfold Mode.read
      rw [units_append_cons] at hname ⊢
      rw [peek_eq hsp (by decide)]
      dsimp only
      rw [if_pos rfl]
      exact hname
  | @object q sp₁ sp₂ sp₃ sp₄ _ hq h₁ h₂ h₃ h₄ =>
    have hname := readName_finds h₁ hq (units (sp₂ ++ ':' :: (sp₃ ++ ("null".toList ++ (sp₄ ++ ['\x7d'])))) ++ tail)
    have hdelimited : Delimited (units (sp₄ ++ ['\x7d']) ++ tail) := by
      rw [units_append_cons]
      exact delimited_space h₄ (delimited_cons (by decide))
    have hnull := readNull_reads sp₃ (units (sp₄ ++ ['\x7d']) ++ tail) h₃ hdelimited
    have hclose : (readMark '\x7d' (units (sp₄ ++ ['\x7d']) ++ tail)).Finds () tail := by
      rw [units_append_cons]
      exact readMark_finds h₄ (by decide)
    unfold Mode.read
    rw [units_append_cons, peek_eq hsp (by decide)]
    dsimp only
    rw [if_neg (by decide)]
    refine (readMark_finds hsp (by decide)).andThen ?_
    rw [units_append₃]
    refine hname.andThen ?_
    rw [units_append_cons]
    refine (readMark_finds h₂ (by decide)).andThen ?_
    rw [units_append₃]
    exact hnull.andThen (hclose.map _)

/-- What is known of a definition when some keys have been seen. -/
def Definition.knownOf (d : Definition) (seen : List String) : Known where
  name := if "name" ∈ seen then some d.name else none
  expression := if "expression" ∈ seen then some d.expression else none
  mode := if "mode" ∈ seen then some d.mode else none
  enabled := if "enabled" ∈ seen then some d.enabled else none

/-- A field of a definition is taken up if its key has not been seen. -/
theorem takesUp_unseen {β : Type} {read : (s : Source) → Reading β s.length} {b : β} {key : String}
    {seen : List String} {known : Option β} {f : β → Definition.Known} (hv : ReadsAs read v b)
    (hmember : ∀ s, (d.knownOf seen).member key s = (readField key known read s).map f)
    (hunseen : known = none) (hknown : d.knownOf (key :: seen) = f b) :
    TakesUp Definition.Known.member (d.knownOf seen) (key, v) (d.knownOf (key :: seen)) := by
  rw [hknown]
  exact takesUp_field hv fun s => by rw [hmember, hunseen]

/-- **One more member of a definition**, which is no field that is known already. -/
theorem known_member {seen : List String} {m : String × List Char} (h : FieldSpelled d m)
    (hnew : m.1 ∈ definitionKeys → m.1 ∉ seen) :
    TakesUp Definition.Known.member (d.knownOf seen) m (d.knownOf (m.1 :: seen)) := by
  cases h with
  | name hv =>
    dsimp only at hnew
    have hunseen : (d.knownOf seen).name = none := if_neg (hnew (by decide))
    exact takesUp_unseen (readString_reads "a string" hv) (fun _ => rfl) hunseen
      (by simp [Definition.knownOf])
  | expression hv =>
    dsimp only at hnew
    have hunseen : (d.knownOf seen).expression = none := if_neg (hnew (by decide))
    exact takesUp_unseen (readString_reads "a string" hv) (fun _ => rfl) hunseen
      (by simp [Definition.knownOf])
  | mode hv =>
    dsimp only at hnew
    have hunseen : (d.knownOf seen).mode = none := if_neg (hnew (by decide))
    exact takesUp_unseen (mode_reads hv) (fun _ => rfl) hunseen (by simp [Definition.knownOf])
  | enabled =>
    dsimp only at hnew
    have hunseen : (d.knownOf seen).enabled = none := if_neg (hnew (by decide))
    exact takesUp_unseen (readBoolean_reads d.enabled) (fun _ => rfl) hunseen
      (by simp [Definition.knownOf])
  | @other key v hkey hv =>
    simp only [definitionKeys, List.mem_cons, List.not_mem_nil, or_false, not_or] at hkey
    obtain ⟨h₁, h₂, h₃, h₄⟩ := hkey
    have hknown : d.knownOf (key :: seen) = d.knownOf seen := by
      simp [Definition.knownOf, Ne.symm h₁, Ne.symm h₂, Ne.symm h₃, Ne.symm h₄]
    dsimp only
    rw [hknown]
    refine takesUp_skipped hv fun s => ?_
    unfold Definition.Known.member
    rw [if_neg h₁, if_neg h₂, if_neg h₃, if_neg h₄]

/-- **Members of a definition are taken up**, where no field comes twice. -/
theorem known_members (hfields : ∀ m ∈ ms, FieldSpelled d m)
    (honce : ∀ key ∈ definitionKeys, (ms.map Prod.fst).count key ≤ 1) :
    TakesUpAll Definition.Known.member {} ms (d.knownOf (ms.map Prod.fst).reverse) := by
  -- nothing is known in the beginning, as no key has been seen
  have htakes := takesUpAll_of d.knownOf definitionKeys (fun _ _ => known_member) ms hfields []
    (fun key hkey => honce key hkey)
  rwa [List.append_nil] at htakes

/-- What is known in the end is the definition. -/
theorem definition_knownOf (h : MembersSpelled d ms) :
    (d.knownOf (ms.map Prod.fst).reverse).definition = .ok d := by
  obtain ⟨name, expression, mode, enabled⟩ := d
  have hmode : (if "mode" ∈ ms.map Prod.fst then some mode else none).getD .including = mode := by
    by_cases hin : "mode" ∈ ms.map Prod.fst
    · rw [if_pos hin]
      rfl
    · rw [if_neg hin]
      by_contra hne
      exact hin (h.mode (Ne.symm hne))
  have henabled : (if "enabled" ∈ ms.map Prod.fst then some enabled else none).getD true = enabled := by
    by_cases hin : "enabled" ∈ ms.map Prod.fst
    · rw [if_pos hin]
      rfl
    · rw [if_neg hin]
      by_contra hne
      exact hin (h.enabled (Ne.symm hne))
  unfold Definition.Known.definition Definition.knownOf
  simp only [List.mem_reverse]
  rw [if_pos h.name, if_pos h.expression]
  dsimp only
  rw [hmode, henabled]

theorem readEnabledOn_done (h : Texts false t []) (d : Definition) (tail : Source) :
    (Definition.readEnabledOn d (units t ++ tail)).Finds d tail :=
  readElement_done h tail (here_finds d tail)

theorem readEnabledOn_finds {b : Bool} (h : Texts false t [booleanWord b]) (d : Definition) (tail : Source) :
    (Definition.readEnabledOn d (units t ++ tail)).Finds { d with enabled := b } tail := by
  refine readElement_present h (starts_booleanWord b) tail fun sp t' hsp ht => ?_
  have hread := readBoolean_reads b sp _ hsp (ht.delimited List.mem_cons_self tail)
  exact hread.andThen ((closeArray_finds ht tail).map _)

theorem readModeOn_done (h : Texts false t []) (d : Definition) (tail : Source) :
    (Definition.readModeOn d (units t ++ tail)).Finds d tail :=
  readElement_done h tail (here_finds d tail)

theorem readModeOn_finds (h : Texts false t (v :: vs)) (hv : ModeSpelled v m) {d e : Definition} (tail : Source)
    (hrest : ∀ t', Texts false t' vs →
      (Definition.readEnabledOn { d with mode := m } (units t' ++ tail)).Finds e tail) :
    (Definition.readModeOn d (units t ++ tail)).Finds e tail := by
  refine readElement_present h hv.starts tail fun sp t' hsp ht => ?_
  have hread := mode_reads hv sp _ hsp (ht.delimited List.mem_cons_self tail)
  exact hread.andAlso (hrest t' ht)

/-- The name and the expression of an array are read, and what comes after them. -/
theorem readArray_finds {name expression : List Char} {e : Definition}
    (h : Texts true t (name :: expression :: vs)) (hname : StringSpelled name d.name)
    (hexpression : StringSpelled expression d.expression) (tail : Source)
    (hrest : ∀ t', Texts false t' vs →
      (Definition.readModeOn { name := d.name, expression := d.expression } (units t' ++ tail)).Finds e tail) :
    (Definition.readArray (units t ++ tail)).Finds e tail := by
  refine readElement_present h hname.starts tail fun sp t' hsp ht => ?_
  have hread := readString_reads "a string" hname sp _ hsp (ht.delimited List.mem_cons_self tail)
  refine hread.andAlso ?_
  refine readElement_present ht hexpression.starts tail fun sp' t'' hsp' ht' => ?_
  have hread' := readString_reads "a string" hexpression sp' _ hsp' (ht'.delimited List.mem_cons_self tail)
  exact hread'.andAlso (hrest t'' ht')

/-- **A definition is read from an array of its fields.** -/
theorem readArray_of_elements (h : Texts true t vs) (hvs : ElementsSpelled d vs) (tail : Source) :
    (Definition.readArray (units t ++ tail)).Finds d tail := by
  obtain ⟨n, e, mode, enabled⟩ := d
  cases hvs with
  | two hname hexpression hmode henabled =>
    obtain rfl : mode = .including := hmode
    obtain rfl : enabled = true := henabled
    exact readArray_finds h hname hexpression tail fun t' ht => readModeOn_done ht _ tail
  | three hname hexpression hmode henabled =>
    obtain rfl : enabled = true := henabled
    exact readArray_finds h hname hexpression tail fun t' ht =>
      readModeOn_finds ht hmode tail fun t'' ht' => readEnabledOn_done ht' _ tail
  | four hname hexpression hmode =>
    exact readArray_finds h hname hexpression tail fun t' ht =>
      readModeOn_finds ht hmode tail fun t'' ht' => readEnabledOn_finds ht' _ tail

theorem DefinitionSpelled.starts (h : DefinitionSpelled v d) : Starts v := by
  cases h with
  | object => exact ⟨_, _, rfl, by decide, by decide⟩
  | array => exact ⟨_, _, rfl, by decide, by decide⟩

/-- **A definition is read from each of its texts.** -/
theorem definition_reads (h : DefinitionSpelled v d) : ReadsAs Definition.read v d := by
  intro sp tail hsp htail
  cases h with
  | @object t _ ms hitems hms =>
    have hhead := readHead_object hsp t tail
    have hread := readMembers_finds hitems (known_members hms.field hms.once) tail
    exact hhead.andAlso (hread.check (definition_knownOf hms))
  | @array t _ vs hitems hvs =>
    have hhead := readHead_array hsp t tail
    exact hhead.andAlso (readArray_of_elements hitems hvs tail)

theorem ListSpelled.starts (h : ListSpelled v ds) : Starts v := by
  cases h with
  | mk => exact ⟨_, _, rfl, by decide, by decide⟩

/-- A list of definitions is read in order. -/
theorem list_reads (h : ListSpelled v ds) : ReadsAs Definition.readList v ds := by
  intro sp tail hsp htail
  cases h with
  | @mk t _ hitems =>
    have hhead := readHead_array hsp t tail
    exact hhead.andAlso (readElements_finds hitems (fun _ _ hd => ⟨hd.starts, definition_reads hd⟩) tail)

/-- What is known of a document when some keys have been seen. -/
def documentKnown (ds : List Definition) (seen : List String) : Option (List Definition) :=
  if "filters" ∈ seen then some ds else none

/-- One more member of a document, which is no second list. -/
theorem document_member {seen : List String} {m : String × List Char} (h : DocumentFieldSpelled ds m)
    (hnew : m.1 ∈ ["filters"] → m.1 ∉ seen) :
    TakesUp Definition.documentMember (documentKnown ds seen) m (documentKnown ds (m.1 :: seen)) := by
  cases h with
  | filters hv =>
    have hunseen : documentKnown ds seen = none := if_neg (hnew List.mem_cons_self)
    have hknown : documentKnown ds ("filters" :: seen) = some ds := if_pos List.mem_cons_self
    dsimp only
    rw [hunseen, hknown]
    refine takesUp_field (list_reads hv) fun s => ?_
    unfold Definition.documentMember
    rw [if_pos rfl]
  | @other key v hkey hv =>
    have hknown : documentKnown ds (key :: seen) = documentKnown ds seen := by
      simp [documentKnown, Ne.symm hkey]
    dsimp only
    rw [hknown]
    refine takesUp_skipped hv fun s => ?_
    unfold Definition.documentMember
    rw [if_neg hkey]

/-- **A list of definitions is read from each of its documents.** -/
theorem document_reads (h : DocumentSpelled v ds) : ReadsAs Definition.readDocument v ds := by
  intro sp tail hsp htail
  cases h with
  | @object t _ ms hitems hms honce hfilters =>
    have hhead := readHead_object hsp t tail
    have htakes := takesUpAll_of (documentKnown ds) ["filters"] (fun _ _ => document_member) ms hms []
      (fun key hkey => by rw [List.mem_singleton.1 hkey]; exact honce)
    have hread := (readMembers_finds hitems htakes tail).map fun known => known.getD []
    have hknown : (documentKnown ds ((ms.map Prod.fst).reverse ++ [])).getD [] = ds := by
      simp only [documentKnown, List.append_nil, List.mem_reverse]
      by_cases hin : "filters" ∈ ms.map Prod.fst
      · rw [if_pos hin]
        rfl
      · rw [if_neg hin]
        by_contra hne
        exact hin (hfilters (Ne.symm hne))
    rw [hknown] at hread
    exact hhead.andAlso hread
  | @array t v _ hitems hlist =>
    have hhead := readHead_array hsp t tail
    refine hhead.andAlso (readElement_present hitems hlist.starts tail fun sp' t' hsp' ht => ?_)
    have hread := list_reads hlist sp' _ hsp' (ht.delimited List.mem_cons_self tail)
    exact hread.andThen ((closeArray_finds ht tail).map _)
  | @missing t hitems =>
    have hhead := readHead_array hsp t tail
    exact hhead.andAlso (readElement_done hitems tail (here_finds [] tail))

/-- The blanks around a document do not count. -/
theorem Renders.ofJson_eq {text : String} (h : Renders text ds) : Definition.ofJson text = .ok ds := by
  cases h with
  | @mk sp v sp' hsp hv hsp' heq =>
    have hdelimited : Delimited (units sp') := by
      have hnil := delimited_space hsp' delimited_nil
      rwa [List.append_nil] at hnil
    have hread := document_reads hv sp (units sp') hsp hdelimited
    unfold Definition.ofJson Definition.readAll
    rw [ofText_eq_units, heq, ← List.append_assoc, units_append]
    exact atEnd_eq hread hsp'

/-- **A list of definitions is read from each of its renderings**, as a text or as the bytes of one. -/
theorem Definition.ofJson_of_renders {text : String} (h : Renders text ds) :
    ofJson text = .ok ds ∧ ofJsonBytes text.toUTF8 = .ok ds := by
  have htext : ofJson text = .ok ds := h.ofJson_eq
  refine ⟨htext, ?_⟩
  unfold ofJsonBytes
  rw [ofBytes_toUTF8]
  exact htext

/-- A name by a surrogate pair, an escaped slash, a mode as an object, a key with an escaped letter, another
key whose value holds a lone surrogate and a number past every double, and both kinds of definitions. -/
theorem Definition.ofJson_of_renders_mixed :
    let text := "\n\x7b\"x\":[\x7b\"\\uD800\":-1e999\x7d] ,\"f\\u0069lters\":[[\"\\uD83d\\uDE00\",\"a\\/\"" ++
      ",\x7b\"exclude\":null\x7d],\x7b\"enabled\":false,\"expression\":\"b\",\"name\":\"\"\x7d]\x7d"
    let ds : List Definition := [⟨"😀", "a/", .excluding, true⟩, ⟨"", "b", .including, false⟩]
    Renders text ds ∧ ofJson text = .ok ds ∧ ofJsonBytes text.toUTF8 = .ok ds := by
  intro text ds
  have hnil : Space [] := space_nil
  -- the first definition
  have hhigh : FourHex ['D', '8', '3', 'd'] (((13 * 16 + 8) * 16 + 3) * 16 + 13) :=
    .mk (by decide) (by decide) (by decide) (by decide)
  have hlow : FourHex ['D', 'E', '0', '0'] (((13 * 16 + 14) * 16 + 0) * 16 + 0) :=
    .mk (by decide) (by decide) (by decide) (by decide)
  have hcode : '😀'.toNat = 0x1F600 := by decide
  have hsmile : CharSpelled _ '😀' := .pair (by decide) (by rw [hcode]; exact hhigh) (by rw [hcode]; exact hlow)
  have hslash : CharSpelled ['\\', '/'] '/' := .short (by decide)
  have hname : StringSpelled _ "😀" := stringSpelled_ofList ['😀'] (.cons hsmile .nil)
  have hexpression : StringSpelled _ "a/" :=
    stringSpelled_ofList ['a', '/'] (.cons (.literal (by decide)) (.cons hslash .nil))
  have hmode : ModeSpelled _ .excluding :=
    .object (stringSpelled_literal ['e', 'x', 'c', 'l', 'u', 'd', 'e'] (by decide)) hnil hnil hnil hnil
  have hfirst : DefinitionSpelled _ ⟨"😀", "a/", .excluding, true⟩ :=
    .array (.first hnil rfl (.next hnil hnil rfl (.next hnil hnil rfl (.done hnil))))
      (.three hname hexpression hmode rfl)
  -- the second one
  have hitems : Items '\x7d' MemberSpelled true _ [("enabled", booleanWord false),
      ("expression", '"' :: (['b'] ++ ['"'])), ("name", '"' :: ([] ++ ['"']))] :=
    .first hnil (.mk (stringSpelled_literal "enabled".toList (by decide)) hnil hnil)
      (.next hnil hnil (.mk (stringSpelled_literal "expression".toList (by decide)) hnil hnil)
        (.next hnil hnil (.mk (stringSpelled_literal "name".toList (by decide)) hnil hnil) (.done hnil)))
  have hmembers : MembersSpelled ⟨"", "b", .including, false⟩ [("enabled", booleanWord false),
      ("expression", '"' :: (['b'] ++ ['"'])), ("name", '"' :: ([] ++ ['"']))] :=
    { field := by
        intro m hm
        simp only [List.mem_cons, List.not_mem_nil, or_false] at hm
        rcases hm with rfl | rfl | rfl
        · exact .enabled
        · exact .expression (stringSpelled_literal ['b'] (by decide))
        · exact .name (stringSpelled_literal [] (by decide))
      once := by decide
      name := by decide
      expression := by decide
      mode := by decide
      enabled := by decide }
  have hlist : ListSpelled _ ds :=
    .mk (.first hnil hfirst (.next hnil hnil (.object hitems hmembers) (.done hnil)))
  -- the value of the other key
  have hlone : FourHex ['D', '8', '0', '0'] (((13 * 16 + 8) * 16 + 0) * 16 + 0) :=
    .mk (by decide) (by decide) (by decide) (by decide)
  have hsurrogate : Skippable _ := .unit hlone .nil
  have hone : Digits ['1'] := ⟨by decide, by decide⟩
  have hmany : Digits ['9', '9', '9'] := ⟨by decide, by decide⟩
  have hnumber : UnsignedSpelled _ :=
    .mk hone (.inr (by decide)) .none (.some (by decide : 'e' ∈ _) (by decide : [] ∈ _) hmany)
  have hinner : WellFormed _ :=
    .object (.first hnil (.mk hsurrogate hnil hnil) (.done hnil)) fun v hv => by
      rw [List.mem_singleton.1 hv]
      exact .negative hnumber
  have hother : WellFormed _ :=
    .array (.first hnil rfl (.done hnil)) fun v hv => by
      rw [List.mem_singleton.1 hv]
      exact hinner
  -- the document
  have hletter : FourHex ['0', '0', '6', '9'] (((0 * 16 + 0) * 16 + 6) * 16 + 9) :=
    .mk (by decide) (by decide) (by decide) (by decide)
  have hi : CharSpelled _ 'i' := .unit hletter
  have hkey : StringSpelled _ "filters" :=
    stringSpelled_ofList ['f', 'i', 'l', 't', 'e', 'r', 's']
      (.cons (.literal (by decide)) (.cons hi (textSpelled_literal (by decide))))
  have hdocument : DocumentSpelled _ ds :=
    .object (.first hnil (.mk (stringSpelled_literal "x".toList (by decide)) hnil hnil)
        (.next (by decide : Space [' ']) hnil (.mk hkey hnil hnil) (.done hnil)))
      (by
        intro m hm
        rcases List.mem_pair.1 hm with rfl | rfl
        · exact .other (by decide) hother
        · exact .filters hlist)
      (by decide) (by decide)
  have hrenders : Renders text ds := .mk (by decide : Space ['\n']) hdocument hnil (by decide +kernel)
  exact ⟨hrenders, ofJson_of_renders hrenders⟩

end EventSieve
