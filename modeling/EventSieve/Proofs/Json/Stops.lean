import EventSieve.Proofs.Json.Items

/-!
# Where reading stops

A defect is the answer once it is seen, so nothing that comes after it in a document matters.

* `Leading`: the text of some items and of what stands before the next one; `Items.exists_leading`: the text
  of an array or object up to any of its items.
* `StopsWith`: within a text a reader stops with a defect, whatever follows.
* `readElements_stops`, `readMembers_stops`: **after items that are read, an element or a member at which the
  reader stops ends the reading of the array or object.**
-/

namespace EventSieve.Json

open Reading

variable {α β : Type} {closer : Char} {isFirst : Bool} {v t w lead : List Char} {a : α}
  {as front back : List α} {Item : List Char → α → Prop} {tail s rest : Source} {bound : ℕ} {d : Defect}

namespace Reading

variable {r : Reading α bound}

theorem Finds.check_error {f : α → Except Defect β} (h : r.Finds a rest) (hf : f a = .error d) :
    r.check f = .defect d := by
  obtain ⟨within, rfl⟩ := h
  unfold Reading.check
  dsimp only
  rw [hf]

theorem Finds.andThen_defect {next : α → (s : Source) → Reading β s.length} (h : r.Finds a s)
    (hnext : next a s = .defect d) : r.andThen next = .defect d := by
  obtain ⟨within, rfl⟩ := h
  unfold Reading.andThen
  dsimp only
  rw [hnext]

theorem Finds.andAlso_defect {next : α → (s : Source) → Reading β (s.length + 1)} (h : r.Finds a s)
    (hnext : next a s = .defect d) : r.andAlso next = .defect d := by
  obtain ⟨within, rfl⟩ := h
  unfold Reading.andAlso
  dsimp only
  rw [hnext]

end Reading

/-- The text of some items and of what stands before the next one. `isFirst` tells whether a comma is missing
before the first one. -/
inductive Leading (Item : List Char → α → Prop) : Bool → List Char → List α → Prop
  | nil {isFirst : Bool} {lead : List Char} : Before isFirst lead → Leading Item isFirst lead []
  | cons {isFirst : Bool} {lead v t : List Char} {a : α} {as : List α} : Before isFirst lead → Item v a →
      Leading Item false t as → Leading Item isFirst (lead ++ (v ++ t)) (a :: as)

/-- Before every item of an array or object stands what leads to it. -/
theorem Items.exists_leading (h : Items closer Item isFirst t (front ++ a :: back)) :
    ∃ lead v rest, t = lead ++ (v ++ rest) ∧ Leading Item isFirst lead front ∧ Item v a := by
  induction front generalizing isFirst t with
  | nil =>
    obtain ⟨lead, v, rest, rfl, hlead, hv, -⟩ := h.uncons
    exact ⟨lead, v, rest, rfl, .nil hlead, hv⟩
  | cons b front ih =>
    obtain ⟨lead, u, t', rfl, hlead, hu, ht⟩ := h.uncons
    obtain ⟨lead', v, rest, rfl, hlead', hv⟩ := ih ht
    refine ⟨_, v, rest, ?_, .cons hlead hu hlead', hv⟩
    simp only [List.append_assoc]

/-- Each of some items has its text. -/
theorem Items.exists_text (h : Items closer Item isFirst t as) (ha : a ∈ as) : ∃ v, Item v a := by
  obtain ⟨front, back, rfl⟩ := List.append_of_mem ha
  obtain ⟨-, v, -, -, -, hv⟩ := h.exists_leading
  exact ⟨v, hv⟩

/-- Items that stand for one thing each may stand for another each. -/
theorem Leading.forall₂ {Item' : List Char → β → Prop} {R : α → β → Prop} {bs : List β}
    (h : Leading Item isFirst t as) (hR : List.Forall₂ R as bs) (himp : ∀ v a b, Item v a → R a b → Item' v b) :
    Leading Item' isFirst t bs := by
  induction h generalizing bs with
  | nil hlead =>
    cases hR
    exact .nil hlead
  | cons hlead hv ht ih =>
    cases hR with
    | cons hab hR => exact .cons hlead (himp _ _ _ hv hab) (ih hR)

/-- What stands before an item that is not the first one ends a value. -/
theorem Before.delimited (h : Before false lead) (tail : Source) : Delimited (units lead ++ tail) := by
  cases h with
  | next hsp hsp' =>
    rw [units_append_cons]
    exact delimited_space hsp (delimited_cons List.mem_cons_self)

theorem Leading.delimited (h : Leading Item false t as) (tail : Source) : Delimited (units t ++ tail) := by
  cases h with
  | nil hlead => exact hlead.delimited tail
  | cons hlead hv ht =>
    rw [units_append, List.append_assoc]
    exact hlead.delimited _

/-- Within a text a reader stops with a defect, whatever follows. -/
def StopsWith (read : (s : Source) → Reading α s.length) (v : List Char) (d : Defect) : Prop :=
  ∀ sp tail, Space sp → read (units (sp ++ v) ++ tail) = .defect d

theorem StopsWith.andThen {read : (s : Source) → Reading α s.length} {next : α → (s : Source) → Reading β s.length}
    (h : StopsWith read v d) : StopsWith (fun s => (read s).andThen next) v d := by
  intro sp tail hsp
  dsimp only
  rw [h sp tail hsp]
  rfl

section Elements

variable {read : (s : Source) → Reading α s.length} {elements : List α}

theorem readElementsFrom_stops (h : Leading Item isFirst lead as)
    (hItem : ∀ v a, Item v a → Starts v ∧ ReadsAs read v a) (hw : Starts w) (hstop : StopsWith read w d)
    (tail : Source) (elements : List α) (within : (units (lead ++ w) ++ tail).length < bound) :
    readElementsFrom read bound elements isFirst (units (lead ++ w) ++ tail) within = .defect d := by
  -- by induction on the elements before the defect, after whatever has been read
  induction h generalizing elements with
  | nil hlead =>
    have hnext := nextElement_before hlead hw [] tail
    rw [List.append_nil] at hnext
    obtain ⟨sp, hsp, hlength, heq⟩ := hnext
    rw [readElementsFrom, heq]
    dsimp only
    rw [hstop sp _ hsp]
  | @cons isFirst lead v t a as hlead hv ht ih =>
    obtain ⟨hstarts, hread⟩ := hItem v a hv
    have hafter : Delimited (units (t ++ w) ++ tail) := by
      rw [units_append, List.append_assoc]
      exact ht.delimited _
    revert within
    rw [List.append_assoc, List.append_assoc]
    intro within
    obtain ⟨within', heq⟩ := readElementsFrom_item hlead hstarts hread hafter within
    rw [heq]
    exact ih (a :: elements) within'

/-- **An element at which the reader stops ends the reading of an array**, after elements that are read. -/
theorem readElements_stops (h : Leading Item true lead as)
    (hItem : ∀ v a, Item v a → Starts v ∧ ReadsAs read v a) (hw : Starts w) (hstop : StopsWith read w d)
    (tail : Source) : readElements read (units (lead ++ w) ++ tail) = .defect d :=
  readElementsFrom_stops h hItem hw hstop tail [] (Source.length_lt_succ _)

/-- An element at which the reader stops ends the reading of an array that stands for a record. -/
theorem readElement_stops {absent : (s : Source) → Reading α (s.length + 1)} (h : Before isFirst lead)
    (hw : Starts w) (hstop : StopsWith read w d) (tail : Source) :
    readElement isFirst absent read (units (lead ++ w) ++ tail) = .defect d := by
  have hnext := nextElement_before h hw [] tail
  rw [List.append_nil] at hnext
  obtain ⟨sp, hsp, hfinds⟩ := hnext
  refine hfinds.andAlso_defect ?_
  rw [if_pos rfl, hstop sp _ hsp]
  rfl

end Elements

section Members

variable {member : α → String → (s : Source) → Reading α s.length} {known known' : α} {key : String}
  {q : List Char} {ms : List (String × List Char)}

theorem readMembersFrom_stops (h : Leading MemberSpelled isFirst lead ms)
    (htakes : TakesUpAll member known ms known') (hq : StringSpelled q key)
    (hstop : ∀ tail, member known' key (units w ++ tail) = .defect d) (tail : Source)
    (within : (units (lead ++ (q ++ w)) ++ tail).length < bound) :
    readMembersFrom member bound known isFirst (units (lead ++ (q ++ w)) ++ tail) within = .defect d := by
  -- the members before the defect and what is known move on together
  induction htakes generalizing isFirst lead with
  | nil =>
    cases h with
    | nil hlead =>
      revert within
      rw [units_append₃]
      intro within
      obtain ⟨hlength, heq⟩ := nextKey_before hlead hq (units w ++ tail)
      rw [readMembersFrom, heq]
      dsimp only
      rw [hstop]
  | cons htake htakes ih =>
    cases h with
    | @cons _ lead v t _ _ hlead hv ht =>
      have hafter : Delimited (units (t ++ (q ++ w)) ++ tail) := by
        rw [units_append, List.append_assoc]
        exact ht.delimited _
      revert within
      rw [List.append_assoc, List.append_assoc]
      intro within
      obtain ⟨within', heq⟩ := readMembersFrom_item hlead hv htake hafter within
      rw [heq]
      exact ih ht hstop within'

/-- **A member at which the reader stops ends the reading of an object**, after members that are taken up. It
stops within what follows the key, which may be nothing. -/
theorem readMembers_stops (h : Leading MemberSpelled true lead ms) (htakes : TakesUpAll member known ms known')
    (hq : StringSpelled q key) (hstop : ∀ tail, member known' key (units w ++ tail) = .defect d) (tail : Source) :
    readMembers member known (units (lead ++ (q ++ w)) ++ tail) = .defect d :=
  readMembersFrom_stops h htakes hq hstop tail (Source.length_lt_succ _)

/-- Where the reader stops at the value of a field, the field is not read. -/
theorem readField_stops {read : (s : Source) → Reading α s.length} {sp sp' : List Char} (hsp : Space sp)
    (hsp' : Space sp') (hstop : StopsWith read w d) (tail : Source) :
    readField key none read (units (sp ++ ':' :: (sp' ++ w)) ++ tail) = .defect d := by
  rw [units_append_cons]
  exact (readMark_finds hsp (by decide)).andThen_defect (hstop sp' tail hsp')

end Members

end EventSieve.Json
