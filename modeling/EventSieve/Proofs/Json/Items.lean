import Mathlib.Data.List.Basic
import EventSieve.Json.Fields
import EventSieve.Proofs.Json.Strings

/-!
# Arrays and objects and their spellings

* `Items`: what stands between the brackets of an array or object: items with commas between them, and
  blanks anywhere but inside the items.
* `ReadsAs`: a reader finds a value at a text, whatever stands before and after it.
* `readElements_finds`: **the elements of an array are read in order.**
* `Texts`, `readElement_present`: arrays that stand for records.
* `MemberSpelled`, `TakesUp`, `readMembers_finds`: **the members of an object are taken up in order**;
  `takesUpAll_of`: in whatever order they are, the same is known in the end.
-/

namespace EventSieve.Json

open Reading

variable {α : Type} {closer c : Char} {isFirst : Bool} {sp sp' v t q lead : List Char} {a : α} {as : List α}
  {Item : List Char → α → Prop} {tail s rest : Source} {bound : ℕ}

/-- The text of some items up to the bracket that ends them. `isFirst` tells whether a comma is missing
before the first one. -/
inductive Items (closer : Char) (Item : List Char → α → Prop) : Bool → List Char → List α → Prop
  | done {isFirst : Bool} {sp : List Char} : Space sp → Items closer Item isFirst (sp ++ [closer]) []
  | first {sp v t : List Char} {a : α} {as : List α} : Space sp → Item v a → Items closer Item false t as →
      Items closer Item true (sp ++ (v ++ t)) (a :: as)
  | next {sp sp' v t : List Char} {a : α} {as : List α} : Space sp → Space sp' → Item v a →
      Items closer Item false t as →
      Items closer Item false (sp ++ ',' :: (sp' ++ (v ++ t))) (a :: as)

/-- What stands before an item: blanks, with a comma among them unless it is the first one. -/
inductive Before : Bool → List Char → Prop
  | first {sp : List Char} : Space sp → Before true sp
  | next {sp sp' : List Char} : Space sp → Space sp' → Before false (sp ++ ',' :: sp')

theorem Items.nil_iff : Items closer Item isFirst t [] ↔ ∃ sp, Space sp ∧ t = sp ++ [closer] := by
  constructor
  · intro h
    cases h with
    | done hsp => exact ⟨_, hsp, rfl⟩
  · rintro ⟨sp, hsp, rfl⟩
    exact .done hsp

/-- The first of some items, with what stands before it and what follows. -/
theorem Items.uncons (h : Items closer Item isFirst t (a :: as)) :
    ∃ lead v t', t = lead ++ (v ++ t') ∧ Before isFirst lead ∧ Item v a ∧ Items closer Item false t' as := by
  cases h with
  | first hsp hv ht => exact ⟨_, _, _, rfl, .first hsp, hv, ht⟩
  | @next sp sp' v t _ _ hsp hsp' hv ht =>
    refine ⟨_, v, t, ?_, .next hsp hsp', hv, ht⟩
    rw [List.append_assoc, List.cons_append]

/-- The brackets that end arrays and objects. -/
def IsCloser (c : Char) : Prop := c ∈ [']', '\x7d']

instance (c : Char) : Decidable (IsCloser c) := inferInstanceAs (Decidable (_ ∈ _))

/-- The text of a value starts with neither a blank nor a closing bracket. -/
def Starts (v : List Char) : Prop := ∃ c t, v = c :: t ∧ Solid c ∧ ¬IsCloser c

/-- After a value a document ends, or a blank, a comma or a closing bracket comes. -/
def Delimited (s : Source) : Prop :=
  ∀ u, s.head? = some u → ∃ c ∈ [' ', '\t', '\n', '\r', ',', ']', '\x7d'], u = some c

theorem delimited_space (h : Space sp) (hs : Delimited s) : Delimited (units sp ++ s) := by
  cases sp with
  | nil => exact hs
  | cons c sp =>
    intro u hu
    have hc : c ∈ [' ', '\t', '\n', '\r'] := h c List.mem_cons_self
    obtain rfl : some c = u := Option.some.inj hu
    refine ⟨c, ?_, rfl⟩
    exact List.mem_append_left [',', ']', '\x7d'] hc

theorem delimited_nil : Delimited [] := fun _ h => nomatch h

theorem delimited_cons (h : c ∈ [',', ']', '\x7d']) : Delimited (some c :: s) := by
  intro u hu
  obtain rfl : some c = u := Option.some.inj hu
  exact ⟨c, List.mem_append_right [' ', '\t', '\n', '\r'] h, rfl⟩

/-- What follows an item ends a value. -/
theorem Items.delimited (h : Items closer Item false t as) (hcloser : IsCloser closer) (tail : Source) :
    Delimited (units t ++ tail) := by
  cases h with
  | done hsp =>
    rw [units_append, List.append_assoc]
    exact delimited_space hsp (delimited_cons (List.mem_cons_of_mem _ hcloser))
  | next hsp hsp' hv ht =>
    rw [units_append, List.append_assoc]
    exact delimited_space hsp (delimited_cons List.mem_cons_self)

/-- What all items have can be said of each of them. -/
theorem Items.of_mem {Item : List Char → α → Prop} {P : α → Prop} (h : Items closer Item isFirst t as)
    (hP : ∀ a ∈ as, P a) : Items closer (fun v a => Item v a ∧ P a) isFirst t as := by
  induction h with
  | done hsp => exact .done hsp
  | first hsp hv ht ih =>
    have hrest := ih fun a ha => hP a (List.mem_cons_of_mem _ ha)
    exact .first hsp ⟨hv, hP _ List.mem_cons_self⟩ hrest
  | next hsp hsp' hv ht ih =>
    have hrest := ih fun a ha => hP a (List.mem_cons_of_mem _ ha)
    exact .next hsp hsp' ⟨hv, hP _ List.mem_cons_self⟩ hrest

/-- Items that stand for one thing each may stand for another each. -/
theorem Items.forall₂ {β : Type} {Item' : List Char → β → Prop} {R : α → β → Prop} {bs : List β}
    (h : Items closer Item isFirst t as) (hR : List.Forall₂ R as bs)
    (himp : ∀ v a b, Item v a → R a b → Item' v b) : Items closer Item' isFirst t bs := by
  induction h generalizing bs with
  | done hsp =>
    cases hR
    exact .done hsp
  | first hsp hv ht ih =>
    cases hR with
    | cons hab hR => exact .first hsp (himp _ _ _ hv hab) (ih hR)
  | next hsp hsp' hv ht ih =>
    cases hR with
    | cons hab hR => exact .next hsp hsp' (himp _ _ _ hv hab) (ih hR)

/-- A reader finds a value at a text, after any blanks and before whatever may follow a value. -/
def ReadsAs (read : (s : Source) → Reading α s.length) (v : List Char) (a : α) : Prop :=
  ∀ sp tail, Space sp → Delimited tail → (read (units (sp ++ v) ++ tail)).Finds a tail

theorem units_append₃ (s t u : List Char) (tail : Source) :
    units (s ++ (t ++ u)) ++ tail = units (s ++ t) ++ (units u ++ tail) := by
  rw [units_append, units_append, units_append]
  simp only [List.append_assoc]

theorem units_append_cons (s t : List Char) (c : Char) (tail : Source) :
    units (s ++ c :: t) ++ tail = units s ++ some c :: (units t ++ tail) := by
  rw [units_append, units_cons, List.append_assoc, List.cons_append]

/-- The first character of a value is what is seen after blanks. -/
theorem peek_starts (hsp : Space sp) (hv : Starts v) (tail : Source) :
    ∃ c, peek (units (sp ++ (v ++ t)) ++ tail) = .ok c ∧ ¬IsCloser c := by
  obtain ⟨c, r, rfl, hsolid, hopen⟩ := hv
  refine ⟨c, ?_, hopen⟩
  rw [List.cons_append, units_append_cons]
  exact peek_eq hsp hsolid

theorem nextElement_done (isFirst : Bool) (hsp : Space sp) (tail : Source) :
    (nextElement isFirst (units (sp ++ [']']) ++ tail)).Finds false tail := by
  rw [units_append_cons]
  unfold nextElement
  rw [peek_eq hsp (by decide)]
  dsimp only
  rw [if_pos rfl]
  exact ((readMark_finds hsp (by decide)).map _).relax

theorem nextElement_first (hsp : Space sp) (hv : Starts v) (t : List Char) (tail : Source) :
    (nextElement true (units (sp ++ (v ++ t)) ++ tail)).Finds true (units (sp ++ v) ++ (units t ++ tail)) := by
  obtain ⟨c, hpeek, hopen⟩ := peek_starts (t := t) hsp hv tail
  have hne : c ≠ ']' := by
    rintro rfl
    exact hopen List.mem_cons_self
  unfold nextElement
  rw [hpeek]
  dsimp only
  rw [if_neg hne, if_pos rfl, units_append₃]
  exact here_finds true _

theorem nextElement_next (hsp : Space sp) (hsp' : Space sp') (hv : Starts v) (t : List Char) (tail : Source) :
    (nextElement false (units (sp ++ ',' :: (sp' ++ (v ++ t))) ++ tail)).Finds true
      (units (sp' ++ v) ++ (units t ++ tail)) := by
  obtain ⟨c, hpeek, hopen⟩ := peek_starts (t := t) hsp' hv tail
  have hne : c ≠ ']' := by
    rintro rfl
    exact hopen List.mem_cons_self
  rw [units_append_cons]
  unfold nextElement
  rw [peek_eq hsp (by decide)]
  dsimp only
  rw [if_neg (by decide), if_neg Bool.false_ne_true]
  refine ((readMark_finds hsp (by decide)).andAlso ?_).relax
  rw [hpeek]
  dsimp only
  rw [if_neg hne, units_append₃]
  exact here_finds true _

/-- What stands before an element does not count. -/
theorem nextElement_before (h : Before isFirst lead) (hv : Starts v) (t : List Char) (tail : Source) :
    ∃ sp, Space sp ∧ (nextElement isFirst (units (lead ++ (v ++ t)) ++ tail)).Finds true
      (units (sp ++ v) ++ (units t ++ tail)) := by
  cases h with
  | first hsp => exact ⟨_, hsp, nextElement_first hsp hv t tail⟩
  | next hsp hsp' =>
    refine ⟨_, hsp', ?_⟩
    rw [List.append_assoc, List.cons_append]
    exact nextElement_next hsp hsp' hv t tail

section Elements

variable {read : (s : Source) → Reading α s.length} {elements : List α}

theorem readElementsFrom_end (h : (nextElement isFirst s).Finds false rest) (within : s.length < bound) :
    (readElementsFrom read bound elements isFirst s within).Finds elements.reverse rest := by
  obtain ⟨hlength, heq⟩ := h
  rw [readElementsFrom, heq]
  exact ⟨_, rfl⟩

/-- After an element, the reading goes on with what follows it. -/
theorem readElementsFrom_item (h : Before isFirst lead) (hv : Starts v) (hread : ReadsAs read v a)
    (hafter : Delimited (units t ++ tail)) (within : (units (lead ++ (v ++ t)) ++ tail).length < bound) :
    ∃ within', readElementsFrom read bound elements isFirst (units (lead ++ (v ++ t)) ++ tail) within =
      readElementsFrom read bound (a :: elements) false (units t ++ tail) within' := by
  obtain ⟨sp, hsp, hlength, heq⟩ := nextElement_before h hv t tail
  obtain ⟨hlength', heq'⟩ := hread sp _ hsp hafter
  refine ⟨Source.length_lt_trans hlength' (Source.length_lt_of_lt_succ hlength within), ?_⟩
  rw [readElementsFrom, heq]
  dsimp only
  rw [heq']

theorem readElementsFrom_finds (h : Items ']' Item isFirst t as)
    (hItem : ∀ v a, Item v a → Starts v ∧ ReadsAs read v a) (tail : Source) (elements : List α)
    (within : (units t ++ tail).length < bound) :
    (readElementsFrom read bound elements isFirst (units t ++ tail) within).Finds
      (elements.reverse ++ as) tail := by
  -- by induction on the elements that are left, after whatever has been read
  induction as generalizing isFirst t elements with
  | nil =>
    obtain ⟨sp, hsp, rfl⟩ := Items.nil_iff.1 h
    rw [List.append_nil]
    exact readElementsFrom_end (nextElement_done _ hsp tail) within
  | cons a as ih =>
    obtain ⟨lead, v, t', rfl, hlead, hv, ht⟩ := h.uncons
    obtain ⟨hstarts, hread⟩ := hItem v a hv
    have hafter := ht.delimited List.mem_cons_self tail
    obtain ⟨within', heq⟩ := readElementsFrom_item hlead hstarts hread hafter within
    have hrest := ih ht (a :: elements) within'
    rw [List.reverse_cons, List.append_assoc, List.singleton_append] at hrest
    rwa [heq]

/-- **The elements of an array are read in order.** -/
theorem readElements_finds (h : Items ']' Item true t as)
    (hItem : ∀ v a, Item v a → Starts v ∧ ReadsAs read v a) (tail : Source) :
    (readElements read (units t ++ tail)).Finds as tail :=
  readElementsFrom_finds h hItem tail [] (Source.length_lt_succ _)

end Elements

/-- The text after the opening bracket of an array that stands for a record: its elements' texts. -/
abbrev Texts (isFirst : Bool) (t : List Char) (vs : List (List Char)) : Prop := Items ']' Eq isFirst t vs

section Texts

variable {vs : List (List Char)} {absent : (s : Source) → Reading α (s.length + 1)}
  {present : (s : Source) → Reading α s.length}

/-- Where an array ends that stands for a record, the answer is that for the missing elements. -/
theorem readElement_done (h : Texts isFirst t []) (tail : Source) (habsent : (absent tail).Finds a rest) :
    (readElement isFirst absent present (units t ++ tail)).Finds a rest := by
  obtain ⟨sp, hsp, rfl⟩ := Items.nil_iff.1 h
  refine (nextElement_done isFirst hsp tail).andAlso ?_
  rw [if_neg Bool.false_ne_true]
  exact habsent

/-- One more element of an array that stands for a record is read with what follows it. -/
theorem readElement_present (h : Texts isFirst t (v :: vs)) (hv : Starts v) (tail : Source)
    (hpresent : ∀ sp t', Space sp → Texts false t' vs →
      (present (units (sp ++ v) ++ (units t' ++ tail))).Finds a rest) :
    (readElement isFirst absent present (units t ++ tail)).Finds a rest := by
  obtain ⟨lead, _, t', rfl, hlead, rfl, ht⟩ := h.uncons
  obtain ⟨sp, hsp, hnext⟩ := nextElement_before hlead hv t' tail
  refine hnext.andAlso ?_
  rw [if_pos rfl]
  exact (hpresent sp t' hsp ht).relax

/-- After the last element the array ends. -/
theorem closeArray_finds (h : Texts false t []) (tail : Source) : (closeArray (units t ++ tail)).Finds () tail := by
  obtain ⟨sp, hsp, rfl⟩ := Items.nil_iff.1 h
  rw [units_append_cons]
  exact readMark_finds hsp (by decide)

end Texts

/-- The spellings of a member with its key and the text of its value. -/
inductive MemberSpelled : List Char → String × List Char → Prop
  | mk {q sp sp' v : List Char} {key : String} : StringSpelled q key → Space sp → Space sp' →
      MemberSpelled (q ++ (sp ++ ':' :: (sp' ++ v))) (key, v)

/-- A key is read after blanks. -/
theorem readKey_finds {key : String} (hsp : Space sp) (hq : StringSpelled q key) (tail : Source) :
    (readKey (units (sp ++ q) ++ tail)).Finds key tail := by
  cases hq with
  | @mk body _ hbody =>
    have heq : units (sp ++ '"' :: (body ++ ['"'])) ++ tail =
        units sp ++ some '"' :: (units body ++ some '"' :: tail) := by
      rw [units_append_cons, units_append_cons]
      rfl
    rw [heq]
    exact (readMark_finds hsp (by decide)).andThen (readQuoted_finds hbody tail)

theorem nextKey_done (isFirst : Bool) (hsp : Space sp) (tail : Source) :
    (nextKey isFirst (units (sp ++ ['\x7d']) ++ tail)).Finds none tail := by
  rw [units_append_cons]
  unfold nextKey
  rw [peek_eq hsp (by decide)]
  dsimp only
  rw [if_pos rfl]
  exact ((readMark_finds hsp (by decide)).map _).relax

theorem nextKey_first {key : String} (hsp : Space sp) (hq : StringSpelled q key) (tail : Source) :
    (nextKey true (units (sp ++ q) ++ tail)).Finds (some key) tail := by
  have hkey := readKey_finds hsp hq tail
  cases hq with
  | mk hbody =>
    unfold nextKey
    rw [units_append_cons] at hkey ⊢
    rw [peek_eq hsp (by decide)]
    dsimp only
    rw [if_neg (by decide), if_pos rfl]
    exact (hkey.map some).relax

theorem nextKey_next {key : String} (hsp : Space sp) (hsp' : Space sp') (hq : StringSpelled q key)
    (tail : Source) :
    (nextKey false (units (sp ++ ',' :: (sp' ++ q)) ++ tail)).Finds (some key) tail := by
  unfold nextKey
  rw [units_append_cons, peek_eq hsp (by decide)]
  dsimp only
  rw [if_neg (by decide), if_neg Bool.false_ne_true]
  exact ((readMark_finds hsp (by decide)).andThen ((readKey_finds hsp' hq tail).map some)).relax

/-- What stands before a key does not count. -/
theorem nextKey_before {key : String} (h : Before isFirst lead) (hq : StringSpelled q key) (tail : Source) :
    (nextKey isFirst (units (lead ++ q) ++ tail)).Finds (some key) tail := by
  cases h with
  | first hsp => exact nextKey_first hsp hq tail
  | next hsp hsp' =>
    rw [List.append_assoc, List.cons_append]
    exact nextKey_next hsp hsp' hq tail

section Members

variable {member : α → String → (s : Source) → Reading α s.length} {known known' : α} {key : String}
  {ms : List (String × List Char)}

/-- What is known before a member is taken up, and after. -/
def TakesUp (member : α → String → (s : Source) → Reading α s.length) (known : α)
    (m : String × List Char) (known' : α) : Prop :=
  ∀ sp sp' tail, Space sp → Space sp' → Delimited tail →
    (member known m.1 (units (sp ++ ':' :: (sp' ++ m.2)) ++ tail)).Finds known' tail

/-- What is known before some members are taken up one after the other, and after. -/
inductive TakesUpAll (member : α → String → (s : Source) → Reading α s.length) :
    α → List (String × List Char) → α → Prop
  | nil {known : α} : TakesUpAll member known [] known
  | cons {known known' known'' : α} {m : String × List Char} {ms : List (String × List Char)} :
      TakesUp member known m known' → TakesUpAll member known' ms known'' →
      TakesUpAll member known (m :: ms) known''

theorem readMembersFrom_end (h : (nextKey isFirst s).Finds none rest) (within : s.length < bound) :
    (readMembersFrom member bound known isFirst s within).Finds known rest := by
  obtain ⟨hlength, heq⟩ := h
  rw [readMembersFrom, heq]
  exact ⟨_, rfl⟩

/-- After a member, the reading goes on with what follows it. -/
theorem readMembersFrom_item {m : String × List Char} (h : Before isFirst lead) (hv : MemberSpelled v m)
    (htake : TakesUp member known m known') (hafter : Delimited (units t ++ tail))
    (within : (units (lead ++ (v ++ t)) ++ tail).length < bound) :
    ∃ within', readMembersFrom member bound known isFirst (units (lead ++ (v ++ t)) ++ tail) within =
      readMembersFrom member bound known' false (units t ++ tail) within' := by
  cases hv with
  | @mk q sp sp' v key hq hsp hsp' =>
    have hsplit : units (lead ++ (q ++ (sp ++ ':' :: (sp' ++ v)) ++ t)) ++ tail =
        units (lead ++ q) ++ (units (sp ++ ':' :: (sp' ++ v)) ++ (units t ++ tail)) := by
      simp only [units_append, List.append_assoc]
    revert within
    rw [hsplit]
    intro within
    obtain ⟨hlength, heq⟩ := nextKey_before h hq (units (sp ++ ':' :: (sp' ++ v)) ++ (units t ++ tail))
    obtain ⟨hlength', heq'⟩ := htake sp sp' _ hsp hsp' hafter
    refine ⟨Source.length_lt_trans hlength' (Source.length_lt_of_lt_succ hlength within), ?_⟩
    rw [readMembersFrom, heq]
    dsimp only
    rw [heq']

theorem readMembersFrom_finds (h : Items '\x7d' MemberSpelled isFirst t ms)
    (htakes : TakesUpAll member known ms known') (tail : Source)
    (within : (units t ++ tail).length < bound) :
    (readMembersFrom member bound known isFirst (units t ++ tail) within).Finds known' tail := by
  -- the members that are left and what is known move on together
  induction htakes generalizing isFirst t with
  | nil =>
    obtain ⟨sp, hsp, rfl⟩ := Items.nil_iff.1 h
    exact readMembersFrom_end (nextKey_done _ hsp tail) within
  | cons htake htakes ih =>
    obtain ⟨lead, v, t', rfl, hlead, hv, ht⟩ := h.uncons
    have hafter := ht.delimited (by decide) tail
    obtain ⟨within', heq⟩ := readMembersFrom_item hlead hv htake hafter within
    rw [heq]
    exact ih ht within'

/-- **The members of an object are taken up in order.** -/
theorem readMembers_finds (h : Items '\x7d' MemberSpelled true t ms)
    (htakes : TakesUpAll member known ms known') (tail : Source) :
    (readMembers member known (units t ++ tail)).Finds known' tail :=
  readMembersFrom_finds h htakes tail (Source.length_lt_succ _)

/-- **A field that is not known yet is read**, and then it is known. -/
theorem takesUp_field {β : Type} {read : (s : Source) → Reading β s.length} {f : β → α} {b : β} {key : String}
    (hv : ReadsAs read v b) (hmember : ∀ s, member known key s = (readField key none read s).map f) :
    TakesUp member known (key, v) (f b) := by
  intro sp sp' tail hsp hsp' htail
  rw [hmember, units_append_cons]
  refine Finds.map (a := b) ?_ f
  exact (readMark_finds hsp (by decide)).andThen (hv sp' tail hsp' htail)

/-- **Members in any order are taken up** when what is known depends on the keys seen so far, every member
adds its key to them, and no field comes twice. -/
theorem takesUpAll_of (state : List String → α) (fields : List String) {Field : String × List Char → Prop}
    (hstep : ∀ seen m, Field m → (m.1 ∈ fields → m.1 ∉ seen) →
      TakesUp member (state seen) m (state (m.1 :: seen)))
    (ms : List (String × List Char)) (hms : ∀ m ∈ ms, Field m) (seen : List String)
    (honce : ∀ key ∈ fields, (ms.map Prod.fst).count key + seen.count key ≤ 1) :
    TakesUpAll member (state seen) ms (state ((ms.map Prod.fst).reverse ++ seen)) := by
  induction ms generalizing seen with
  | nil => exact .nil
  | cons m ms ih =>
    have hnew : m.1 ∈ fields → m.1 ∉ seen := by
      intro hfield hseen
      have hcount := honce m.1 hfield
      have hpos := List.count_pos_iff.2 hseen
      rw [List.map_cons, List.count_cons_self] at hcount
      omega
    have hfirst := hstep seen m (hms m List.mem_cons_self) hnew
    -- a key that moves to those that were seen is counted as before
    have hrest := ih (fun m hm => hms m (List.mem_cons_of_mem _ hm)) (m.1 :: seen) fun key hkey => by
      have hcount := honce key hkey
      rw [List.map_cons, List.count_cons] at hcount
      rw [List.count_cons]
      omega
    rw [List.map_cons, List.reverse_cons, List.append_assoc, List.singleton_append]
    exact .cons hfirst hrest

end Members

end EventSieve.Json
