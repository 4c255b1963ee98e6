import Mathlib.Data.List.Induction
import EventSieve.Proofs.Gate.Documents
import EventSieve.Proofs.Json.Stops

/-!
# The first defect of a document

Definitions are written as objects whose members are the fields of a definition, in any order and any number
of times, and other keys.

* `Flawed`, `FirstFlaw`: the defect of such an object, and the first one of a list of them.
* `Lists`: the documents whose definitions are such objects.
* `Broken`: what of a document is read until a defect shows; `Broken.ofJson_eq`: **what comes after that does
  not matter.**
* `Definition.ofJson_of_objects`: **a document is read as one definition for each object, or the first defect
  is its error.**
-/

namespace EventSieve

open Json Json.Reading

variable {v w t sp read : List Char} {d : Definition} {ds : List Definition} {m : Mismatch}
  {ms front back : List (String × List Char)} {objects : List (List (String × List Char))} {key : String}
  {seen : List String}

/-- A member with a value of the type of its field. -/
def WellTyped (member : String × List Char) : Prop := ∃ d, FieldSpelled d member

/-- The definition whose members an object has. -/
abbrev StandsFor (ms : List (String × List Char)) (d : Definition) : Prop := MembersSpelled d ms

/-- No field comes twice. -/
def Distinct (ms : List (String × List Char)) : Prop :=
  ∀ key ∈ definitionKeys, (ms.map Prod.fst).count key ≤ 1

instance (ms : List (String × List Char)) : Decidable (Distinct ms) := inferInstanceAs (Decidable (∀ _ ∈ _, _))

/-- The field that an object lacks: its name, or else its expression. -/
inductive Missing (ms : List (String × List Char)) : Mismatch → Prop
  | name : "name" ∉ ms.map Prod.fst → Missing ms (.missingField "name")
  | expression : "name" ∈ ms.map Prod.fst → "expression" ∉ ms.map Prod.fst →
      Missing ms (.missingField "expression")

/-- The defect of an object: the first field that comes again, or, where none does, the one that is missing. -/
inductive Flawed : List (String × List Char) → Mismatch → Prop
  | repeated {front back : List (String × List Char)} {member : String × List Char} : Distinct front →
      member.1 ∈ definitionKeys → member.1 ∈ front.map Prod.fst →
      Flawed (front ++ member :: back) (.duplicateField member.1)
  | incomplete {ms : List (String × List Char)} {m : Mismatch} : Distinct ms → Missing ms m → Flawed ms m

/-- The defect of the first object that has one. -/
def FirstFlaw (objects : List (List (String × List Char))) (m : Mismatch) : Prop :=
  ∃ before ms after, objects = before ++ ms :: after ∧ (∀ object ∈ before, ∀ m', ¬Flawed object m') ∧ Flawed ms m

/-- Of members that do not come twice the one with some key, if any, has its value in a definition, which is
the usual one in all that the members do not tell. -/
theorem exists_field (hms : ∀ member ∈ ms, WellTyped member) (h : (ms.map Prod.fst).count key ≤ 1) :
    ∃ d : Definition, (∀ member ∈ ms, member.1 = key → FieldSpelled d member) ∧
      (key ∉ ms.map Prod.fst → d.mode = .including ∧ d.enabled = true) := by
  induction ms with
  | nil => exact ⟨{ name := "", expression := "" }, List.forall_mem_nil _, fun _ => ⟨rfl, rfl⟩⟩
  | cons first ms ih =>
    have hrest := fun member hmember => hms member (List.mem_cons_of_mem _ hmember)
    rw [List.map_cons, List.count_cons] at h
    by_cases hfirst : first.1 = key
    · obtain ⟨d, hd⟩ := hms first List.mem_cons_self
      rw [if_pos (beq_iff_eq.2 hfirst)] at h
      have hnone : key ∉ ms.map Prod.fst := List.count_eq_zero.1 (by omega)
      refine ⟨d, fun member hmember heq => ?_, fun habsent => absurd ?_ habsent⟩
      · rcases List.mem_cons.1 hmember with rfl | hmember
        · exact hd
        · exact absurd (heq ▸ List.mem_map_of_mem hmember) hnone
      · exact List.mem_cons.2 (.inl hfirst.symm)
    · obtain ⟨d, hd, hdefault⟩ := ih hrest (by omega)
      refine ⟨d, fun member hmember heq => ?_, fun habsent => hdefault ?_⟩
      · rcases List.mem_cons.1 hmember with rfl | hmember
        · exact absurd heq hfirst
        · exact hd member hmember heq
      · intro hpresent
        exact habsent (List.mem_cons_of_mem _ hpresent)

/-- A member tells one field of a definition at most. -/
theorem FieldSpelled.congr {d' : Definition} {member : String × List Char} (h : FieldSpelled d member)
    (hname : member.1 = "name" → d'.name = d.name)
    (hexpression : member.1 = "expression" → d'.expression = d.expression)
    (hmode : member.1 = "mode" → d'.mode = d.mode) (henabled : member.1 = "enabled" → d'.enabled = d.enabled) :
    FieldSpelled d' member := by
  cases h with
  | name hv => exact .name ((hname rfl).symm ▸ hv)
  | expression hv => exact .expression ((hexpression rfl).symm ▸ hv)
  | mode hv => exact .mode ((hmode rfl).symm ▸ hv)
  | enabled =>
    rw [← henabled rfl]
    exact .enabled
  | other hkey hv => exact .other hkey hv

/-- Members that do not come twice are those of a definition, which is the usual one in all that they do not
tell. -/
theorem Distinct.exists_definition (h : Distinct ms) (hms : ∀ member ∈ ms, WellTyped member) :
    ∃ d : Definition, (∀ member ∈ ms, FieldSpelled d member) ∧
      (d.mode ≠ .including → "mode" ∈ ms.map Prod.fst) ∧ (d.enabled ≠ true → "enabled" ∈ ms.map Prod.fst) := by
  choose pick hpick hdefault using fun key hkey => exists_field hms (h key hkey)
  have hmode : "mode" ∈ definitionKeys := by decide
  have henabled : "enabled" ∈ definitionKeys := by decide
  refine ⟨⟨(pick "name" (by decide)).name, (pick "expression" (by decide)).expression, (pick "mode" hmode).mode,
    (pick "enabled" henabled).enabled⟩, fun member hmember => ?_, fun hne => ?_, fun hne => ?_⟩
  · by_cases hkey : member.1 ∈ definitionKeys
    · refine (hpick _ hkey member hmember rfl).congr ?_ ?_ ?_ ?_
      all_goals
        intro heq
        simp only [heq]
    · obtain ⟨d, hd⟩ := hms member hmember
      refine hd.congr ?_ ?_ ?_ ?_
      all_goals
        intro heq
        rw [heq] at hkey
        exact absurd (by decide) hkey
  · by_contra habsent
    exact hne (hdefault "mode" hmode habsent).1
  · by_contra habsent
    exact hne (hdefault "enabled" henabled habsent).2

/-- No field comes twice, or there is a first one that does. -/
theorem distinct_or_repeated (ms : List (String × List Char)) :
    Distinct ms ∨ ∃ front member back, ms = front ++ member :: back ∧ Distinct front ∧
      member.1 ∈ definitionKeys ∧ member.1 ∈ front.map Prod.fst := by
  induction ms using List.reverseRecOn with
  | nil => exact .inl (by decide)
  | append_singleton ms last ih =>
    rcases ih with hdistinct | ⟨front, member, back, rfl, hfront, hkey, hseen⟩
    · by_cases hlast : last.1 ∈ definitionKeys ∧ last.1 ∈ ms.map Prod.fst
      · exact .inr ⟨ms, last, [], rfl, hdistinct, hlast⟩
      · refine .inl fun key hkey => ?_
        have hcount := hdistinct key hkey
        rw [List.map_append, List.count_append, List.map_singleton, List.count_singleton]
        split
        · next heq =>
          obtain rfl := beq_iff_eq.1 heq
          have hnone := List.count_eq_zero.2 (not_and.1 hlast hkey)
          omega
        · omega
    · exact .inr ⟨front, member, back ++ [last], by simp, hfront, hkey, hseen⟩

theorem MembersSpelled.wellTyped (h : MembersSpelled d ms) : ∀ member ∈ ms, WellTyped member :=
  fun member hmember => ⟨d, h.field member hmember⟩

/-- Members with a field that comes twice are no definition's. -/
theorem not_distinct_of_repeated {member : String × List Char} (hkey : member.1 ∈ definitionKeys)
    (hseen : member.1 ∈ front.map Prod.fst) : ¬Distinct (front ++ member :: back) := by
  intro h
  have hcount := h member.1 hkey
  have hpos := List.count_pos_iff.2 hseen
  rw [List.map_append, List.count_append, List.map_cons, List.count_cons_self] at hcount
  omega

/-- **An object stands for a definition exactly when it has no defect.** -/
theorem exists_definition_iff (hms : ∀ member ∈ ms, WellTyped member) :
    (∃ d, StandsFor ms d) ↔ ∀ m, ¬Flawed ms m := by
  constructor
  · rintro ⟨d, hd⟩ m hm
    cases hm with
    | repeated hfront hkey hseen => exact not_distinct_of_repeated hkey hseen hd.once
    | incomplete hdistinct hmissing =>
      cases hmissing with
      | name hname => exact hname hd.name
      | expression hname hexpression => exact hexpression hd.expression
  · intro hgood
    rcases distinct_or_repeated ms with hdistinct | ⟨front, member, back, rfl, hfront, hkey, hseen⟩
    · have hname : "name" ∈ ms.map Prod.fst := by
        by_contra habsent
        exact hgood _ (.incomplete hdistinct (.name habsent))
      have hexpression : "expression" ∈ ms.map Prod.fst := by
        by_contra habsent
        exact hgood _ (.incomplete hdistinct (.expression hname habsent))
      obtain ⟨d, hfields, hmode, henabled⟩ := hdistinct.exists_definition hms
      exact ⟨d, hfields, hdistinct, hname, hexpression, hmode, henabled⟩
    · exact absurd (.repeated hfront hkey hseen) (hgood _)

/-- Objects without a defect stand for definitions. -/
theorem exists_definitions (hobjects : ∀ ms ∈ objects, ∀ member ∈ ms, WellTyped member)
    (h : ∀ ms ∈ objects, ∀ m, ¬Flawed ms m) : ∃ ds, List.Forall₂ StandsFor objects ds := by
  induction objects with
  | nil => exact ⟨[], .nil⟩
  | cons ms objects ih =>
    obtain ⟨ds, hds⟩ := ih (fun object ho => hobjects object (List.mem_cons_of_mem _ ho))
      (fun object ho => h object (List.mem_cons_of_mem _ ho))
    obtain ⟨d, hd⟩ := (exists_definition_iff (hobjects ms List.mem_cons_self)).2 (h ms List.mem_cons_self)
    exact ⟨d :: ds, .cons hd hds⟩

/-- Objects have no defect, or there is a first one. -/
theorem flawless_or_firstFlaw (objects : List (List (String × List Char))) :
    (∀ ms ∈ objects, ∀ m, ¬Flawed ms m) ∨ ∃ m, FirstFlaw objects m := by
  induction objects with
  | nil => exact .inl (List.forall_mem_nil _)
  | cons ms objects ih =>
    by_cases hms : ∃ m, Flawed ms m
    · obtain ⟨m, hm⟩ := hms
      exact .inr ⟨m, [], ms, objects, rfl, List.forall_mem_nil _, hm⟩
    · rw [not_exists] at hms
      rcases ih with hgood | ⟨m, before, bad, after, rfl, hbefore, hbad⟩
      · exact .inl (List.forall_mem_cons.2 ⟨hms, hgood⟩)
      · exact .inr ⟨m, ms :: before, bad, after, rfl, List.forall_mem_cons.2 ⟨hms, hbefore⟩, hbad⟩

/-! ## Texts -/

/-- The texts of an object. -/
inductive ObjectSpelled : List Char → List (String × List Char) → Prop
  | mk {t : List Char} {ms : List (String × List Char)} : Items '\x7d' MemberSpelled true t ms →
      (∀ member ∈ ms, WellTyped member) → ObjectSpelled ('\x7b' :: t) ms

/-- The texts of a list of objects. -/
inductive ObjectsSpelled : List Char → List (List (String × List Char)) → Prop
  | mk {t : List Char} {objects : List (List (String × List Char))} : Items ']' ObjectSpelled true t objects →
      ObjectsSpelled ('[' :: t) objects

/-- A member of a document that does not matter. -/
def OtherMember (member : String × List Char) : Prop := member.1 ≠ "filters" ∧ WellFormed member.2

/-- The texts of a document with a list of objects, without the blanks around it. -/
inductive DocumentLists : List Char → List (List (String × List Char)) → Prop
  | object {t v : List Char} {front back : List (String × List Char)}
      {objects : List (List (String × List Char))} :
      Items '\x7d' MemberSpelled true t (front ++ ("filters", v) :: back) →
      (∀ member ∈ front ++ back, OtherMember member) → ObjectsSpelled v objects →
      DocumentLists ('\x7b' :: t) objects
  | array {t v : List Char} {objects : List (List (String × List Char))} : Texts true t [v] →
      ObjectsSpelled v objects → DocumentLists ('[' :: t) objects

/-- The texts of a document with a list of objects: blanks may stand around it. -/
inductive Lists (text : String) (objects : List (List (String × List Char))) : Prop
  | mk {sp v sp' : List Char} : Space sp → DocumentLists v objects → Space sp' →
      text.toList = sp ++ (v ++ sp') → Lists text objects

theorem ObjectsSpelled.wellTyped (h : ObjectsSpelled v objects) :
    ∀ ms ∈ objects, ∀ member ∈ ms, WellTyped member := by
  intro ms hms
  cases h with
  | mk hitems =>
    obtain ⟨u, hu⟩ := hitems.exists_text hms
    cases hu with
    | mk _ hfields => exact hfields

theorem Lists.wellTyped {text : String} (h : Lists text objects) :
    ∀ ms ∈ objects, ∀ member ∈ ms, WellTyped member := by
  cases h with
  | mk _ hv _ _ =>
    cases hv with
    | object _ _ hlist => exact hlist.wellTyped
    | array _ hlist => exact hlist.wellTyped

theorem ObjectSpelled.definitionSpelled (h : ObjectSpelled v ms) (hd : MembersSpelled d ms) :
    DefinitionSpelled v d := by
  cases h with
  | mk hitems => exact .object hitems hd

theorem ObjectsSpelled.listSpelled (h : ObjectsSpelled v objects)
    (hds : List.Forall₂ StandsFor objects ds) : ListSpelled v ds := by
  cases h with
  | mk hitems => exact .mk (hitems.forall₂ hds fun _ _ _ hobject hd => hobject.definitionSpelled hd)

theorem DocumentLists.documentSpelled (h : DocumentLists v objects)
    (hds : List.Forall₂ StandsFor objects ds) : DocumentSpelled v ds := by
  cases h with
  | @object t v front back _ hitems hothers hlist =>
    have hfields : ∀ member ∈ front ++ ("filters", v) :: back, DocumentFieldSpelled ds member := by
      intro member hmember
      rcases List.mem_append.1 hmember with hmember | hmember
      · obtain ⟨hkey, hv⟩ := hothers member (List.mem_append_left _ hmember)
        exact .other hkey hv
      · rcases List.mem_cons.1 hmember with rfl | hmember
        · exact .filters (hlist.listSpelled hds)
        · obtain ⟨hkey, hv⟩ := hothers member (List.mem_append_right _ hmember)
          exact .other hkey hv
    have hnone : ((front ++ back).map Prod.fst).count "filters" = 0 := by
      refine List.count_eq_zero.2 fun hmem => ?_
      obtain ⟨member, hmember, heq⟩ := List.mem_map.1 hmem
      exact (hothers member hmember).1 heq
    refine .object hitems hfields ?_ fun _ => ?_
    · rw [List.map_append, List.count_append] at hnone ⊢
      rw [List.map_cons, List.count_cons_self]
      omega
    · simp
  | array hitems hlist => exact .array hitems (hlist.listSpelled hds)

/-- A document whose objects stand for definitions is one of their renderings. -/
theorem Lists.renders {text : String} (h : Lists text objects)
    (hds : List.Forall₂ StandsFor objects ds) : Renders text ds := by
  cases h with
  | mk hsp hv hsp' heq => exact .mk hsp (hv.documentSpelled hds) hsp' heq

/-- The text of an object up to the key of a field that comes again, or up to its end if a field is missing. -/
inductive ObjectBroken : List Char → Mismatch → Prop
  | repeated {lead q : List Char} {ms : List (String × List Char)} {key : String} :
      Leading MemberSpelled true lead ms → (∀ member ∈ ms, WellTyped member) → Distinct ms →
      key ∈ definitionKeys → key ∈ ms.map Prod.fst → StringSpelled q key →
      ObjectBroken ('\x7b' :: (lead ++ q)) (.duplicateField key)
  | incomplete {t : List Char} {ms : List (String × List Char)} {m : Mismatch} :
      Items '\x7d' MemberSpelled true t ms → (∀ member ∈ ms, WellTyped member) → Distinct ms → Missing ms m →
      ObjectBroken ('\x7b' :: t) m

/-- The text of a list up to the defect of an object, after definitions without defects. -/
inductive ListBroken : List Char → Mismatch → Prop
  | mk {lead w : List Char} {ds : List Definition} {m : Mismatch} : Leading DefinitionSpelled true lead ds →
      ObjectBroken w m → ListBroken ('[' :: (lead ++ w)) m

/-- The text of a document up to the defect of an object. -/
inductive DocumentBroken : List Char → Mismatch → Prop
  | object {lead q sp sp' w : List Char} {ms : List (String × List Char)} {m : Mismatch} :
      Leading MemberSpelled true lead ms → (∀ member ∈ ms, OtherMember member) → StringSpelled q "filters" →
      Space sp → Space sp' → ListBroken w m →
      DocumentBroken ('\x7b' :: (lead ++ (q ++ (sp ++ ':' :: (sp' ++ w))))) m
  | array {sp w : List Char} {m : Mismatch} : Space sp → ListBroken w m → DocumentBroken ('[' :: (sp ++ w)) m

/-- What of a document is read until the defect of an object shows. -/
inductive Broken : List Char → Mismatch → Prop
  | mk {sp w : List Char} {m : Mismatch} : Space sp → DocumentBroken w m → Broken (sp ++ w) m

theorem ObjectSpelled.exists_broken (h : ObjectSpelled v ms) (hm : Flawed ms m) :
    ∃ w, w <+: v ∧ ObjectBroken w m := by
  cases h with
  | @mk t _ hitems hfields =>
    cases hm with
    | @repeated front back member hfront hkey hseen =>
      obtain ⟨lead, u, rest, rfl, hlead, hu⟩ := hitems.exists_leading
      cases hu with
      | @mk q sp sp' v key hq hsp hsp' =>
        have htyped := fun member hmember => hfields member (List.mem_append_left _ hmember)
        refine ⟨_, ⟨sp ++ ':' :: (sp' ++ v) ++ rest, ?_⟩, .repeated hlead htyped hfront hkey hseen hq⟩
        simp only [List.cons_append, List.append_assoc]
    | incomplete hdistinct hmissing =>
      exact ⟨_, List.prefix_rfl, .incomplete hitems hfields hdistinct hmissing⟩

theorem ObjectsSpelled.exists_broken (h : ObjectsSpelled v objects) (hm : FirstFlaw objects m) :
    ∃ w, w <+: v ∧ ListBroken w m := by
  have htyped := h.wellTyped
  obtain ⟨before, ms, after, rfl, hbefore, hms⟩ := hm
  cases h with
  | mk hitems =>
    obtain ⟨lead, u, rest, rfl, hlead, hu⟩ := hitems.exists_leading
    obtain ⟨w, hw, hbroken⟩ := hu.exists_broken hms
    obtain ⟨ds, hds⟩ :=
      exists_definitions (fun object ho => htyped object (List.mem_append_left _ ho)) hbefore
    refine ⟨'[' :: (lead ++ w), ?_, .mk (hlead.forall₂ hds fun _ _ _ ho hd => ho.definitionSpelled hd) hbroken⟩
    rw [List.cons_prefix_cons, List.prefix_append_right_inj]
    exact ⟨rfl, hw.trans (List.prefix_append u rest)⟩

theorem DocumentLists.exists_broken (h : DocumentLists v objects) (hm : FirstFlaw objects m) :
    ∃ w, w <+: v ∧ DocumentBroken w m := by
  cases h with
  | @object t v front back _ hitems hothers hlist =>
    obtain ⟨w, hw, hbroken⟩ := hlist.exists_broken hm
    obtain ⟨lead, u, rest, rfl, hlead, hu⟩ := hitems.exists_leading
    have hfront := fun member hmember => hothers member (List.mem_append_left _ hmember)
    cases hu with
    | @mk q sp sp' v _ hq hsp hsp' =>
      refine ⟨'\x7b' :: (lead ++ (q ++ (sp ++ ':' :: (sp' ++ w)))), ?_,
        .object hlead hfront hq hsp hsp' hbroken⟩
      simp only [List.cons_prefix_cons, List.append_assoc, List.cons_append, List.prefix_append_right_inj,
        true_and]
      exact hw.trans (List.prefix_append _ rest)
  | @array t v _ hitems hlist =>
    obtain ⟨w, hw, hbroken⟩ := hlist.exists_broken hm
    obtain ⟨lead, _, t', rfl, hlead, rfl, -⟩ := hitems.uncons
    cases hlead with
    | first hsp =>
      refine ⟨'[' :: (lead ++ w), ?_, .array hsp hbroken⟩
      rw [List.cons_prefix_cons, List.prefix_append_right_inj]
      exact ⟨rfl, hw.trans (List.prefix_append _ t')⟩

/-- Until its first defect shows, a part of a document is read. -/
theorem Lists.exists_broken {text : String} (h : Lists text objects) (hm : FirstFlaw objects m) :
    ∃ read, read <+: text.toList ∧ Broken read m := by
  cases h with
  | @mk sp v sp' hsp hv hsp' heq =>
    obtain ⟨w, hw, hbroken⟩ := hv.exists_broken hm
    refine ⟨sp ++ w, ?_, .mk hsp hbroken⟩
    rw [heq, List.prefix_append_right_inj]
    exact hw.trans (List.prefix_append v sp')

/-! ## Reading until a defect shows -/

/-- **A field that is known already is refused**, whatever its value. -/
theorem known_repeated (hkey : key ∈ definitionKeys) (hseen : key ∈ seen) (s : Source) :
    Definition.Known.member (d.knownOf seen) key s = .defect (.mismatch (.duplicateField key)) := by
  simp only [definitionKeys, List.mem_cons, List.not_mem_nil, or_false] at hkey
  unfold Definition.Known.member Definition.knownOf
  rcases hkey with rfl | rfl | rfl | rfl
  · rw [if_pos rfl, if_pos hseen]
    rfl
  · rw [if_neg (by decide), if_pos rfl, if_pos hseen]
    rfl
  · rw [if_neg (by decide), if_neg (by decide), if_pos rfl, if_pos hseen]
    rfl
  · rw [if_neg (by decide), if_neg (by decide), if_neg (by decide), if_pos rfl, if_pos hseen]
    rfl

/-- What is known in the end lacks a field. -/
theorem definition_missing (h : Missing ms m) :
    (d.knownOf (ms.map Prod.fst).reverse).definition = .error (.mismatch m) := by
  unfold Definition.Known.definition Definition.knownOf
  simp only [List.mem_reverse]
  cases h with
  | name hname => rw [if_neg hname]
  | expression hname hexpression => rw [if_pos hname, if_neg hexpression]

theorem ObjectBroken.stops (h : ObjectBroken v m) : StopsWith Definition.read v (.mismatch m) := by
  intro sp tail hsp
  cases h with
  | @repeated lead q ms key hlead htyped hdistinct hkey hseen hq =>
    obtain ⟨d, hfields, -⟩ := hdistinct.exists_definition htyped
    have hknown : key ∈ (ms.map Prod.fst).reverse := List.mem_reverse.2 hseen
    have hstop := readMembers_stops hlead (known_members hfields hdistinct) hq
      (fun tail => known_repeated hkey hknown (units [] ++ tail)) tail
    rw [List.append_nil] at hstop
    refine (readHead_object hsp (lead ++ q) tail).andAlso_defect ?_
    exact congrArg (Reading.check Definition.Known.definition) hstop
  | @incomplete t ms _ hitems htyped hdistinct hmissing =>
    obtain ⟨d, hfields, -⟩ := hdistinct.exists_definition htyped
    refine (readHead_object hsp t tail).andAlso_defect ?_
    exact (readMembers_finds hitems (known_members hfields hdistinct) tail).check_error (definition_missing hmissing)

theorem ObjectBroken.starts (h : ObjectBroken v m) : Starts v := by
  cases h with
  | repeated => exact ⟨_, _, rfl, by decide, by decide⟩
  | incomplete => exact ⟨_, _, rfl, by decide, by decide⟩

theorem ListBroken.stops (h : ListBroken v m) : StopsWith Definition.readList v (.mismatch m) := by
  intro sp tail hsp
  cases h with
  | @mk lead w ds _ hlead hw =>
    refine (readHead_array hsp (lead ++ w) tail).andAlso_defect ?_
    exact readElements_stops hlead (fun _ _ hd => ⟨hd.starts, definition_reads hd⟩) hw.starts hw.stops tail

theorem ListBroken.starts (h : ListBroken v m) : Starts v := by
  cases h with
  | mk => exact ⟨_, _, rfl, by decide, by decide⟩

/-- Members of a document that do not matter are taken up. -/
theorem takesUpAll_other (hms : ∀ member ∈ ms, OtherMember member) :
    TakesUpAll Definition.documentMember none ms none := by
  induction ms with
  | nil => exact .nil
  | cons member ms ih =>
    obtain ⟨hkey, hv⟩ := hms member List.mem_cons_self
    refine .cons ?_ (ih fun other ho => hms other (List.mem_cons_of_mem _ ho))
    refine takesUp_skipped hv fun s => ?_
    unfold Definition.documentMember
    rw [if_neg hkey]

theorem DocumentBroken.stops (h : DocumentBroken v m) : StopsWith Definition.readDocument v (.mismatch m) := by
  intro sp tail hsp
  cases h with
  | @object lead q sp₁ sp₂ w ms _ hlead hothers hq h₁ h₂ hw =>
    have hlist : ∀ tail, Definition.documentMember none "filters" (units (sp₁ ++ ':' :: (sp₂ ++ w)) ++ tail) =
        .defect (.mismatch m) := by
      intro tail
      unfold Definition.documentMember
      rw [if_pos rfl, readField_stops h₁ h₂ hw.stops]
      rfl
    have hstop := readMembers_stops hlead (takesUpAll_other hothers) hq hlist tail
    refine (readHead_object hsp _ tail).andAlso_defect ?_
    exact congrArg (Reading.map fun known => known.getD []) hstop
  | @array sp' w _ hsp' hw =>
    refine (readHead_array hsp (sp' ++ w) tail).andAlso_defect ?_
    exact readElement_stops (.first hsp') hw.starts hw.stops.andThen tail

/-- **After the first defect nothing matters.** -/
theorem Broken.ofJson_eq {text : String} (h : Broken read m) (hread : read <+: text.toList) :
    Definition.ofJson text = .error (.mismatch m) := by
  cases h with
  | @mk sp w _ hsp hw =>
    obtain ⟨rest, hrest⟩ := hread
    have hstop := hw.stops sp (units rest) hsp
    unfold Definition.ofJson Definition.readAll
    rw [ofText_eq_units, ← hrest, units_append, hstop]
    rfl

/-- **A document is read as one definition for each of its objects**, with the values that are given and the
usual ones for the rest, **or the first defect is its error**, which shows before anything after it is read. -/
theorem Definition.ofJson_of_objects {text : String} (h : Lists text objects) :
    (∀ ds, ofJson text = .ok ds ↔ List.Forall₂ StandsFor objects ds) ∧
      (∀ defect, ofJson text = .error defect ↔ ∃ m, FirstFlaw objects m ∧ defect = .mismatch m) ∧
      ∀ m, FirstFlaw objects m → ∃ read, read <+: text.toList ∧ Broken read m ∧
        ∀ text' : String, read <+: text'.toList → ofJson text' = .error (.mismatch m) := by
  have hok : ∀ ds, List.Forall₂ StandsFor objects ds → ofJson text = .ok ds :=
    fun ds hds => (h.renders hds).ofJson_eq
  have hshows : ∀ m, FirstFlaw objects m → ∃ read, read <+: text.toList ∧ Broken read m ∧
      ∀ text' : String, read <+: text'.toList → ofJson text' = .error (.mismatch m) := by
    intro m hm
    obtain ⟨read, hread, hbroken⟩ := h.exists_broken hm
    exact ⟨read, hread, hbroken, fun text' hread' => hbroken.ofJson_eq hread'⟩
  have herror : ∀ m, FirstFlaw objects m → ofJson text = .error (.mismatch m) := by
    intro m hm
    obtain ⟨read, hread, -, hall⟩ := hshows m hm
    exact hall text hread
  refine ⟨fun ds => ⟨fun hds => ?_, hok ds⟩, fun defect => ⟨fun hdefect => ?_, ?_⟩, hshows⟩
  · rcases flawless_or_firstFlaw objects with hgood | ⟨m, hm⟩
    · obtain ⟨ds', hds'⟩ := exists_definitions h.wellTyped hgood
      have heq : ds' = ds := Except.ok.inj ((hok ds' hds').symm.trans hds)
      rwa [heq] at hds'
    · cases (herror m hm).symm.trans hds
  · rcases flawless_or_firstFlaw objects with hgood | ⟨m, hm⟩
    · obtain ⟨ds, hds⟩ := exists_definitions h.wellTyped hgood
      cases (hok ds hds).symm.trans hdefect
    · exact ⟨m, hm, Except.error.inj (hdefect.symm.trans (herror m hm))⟩
  · rintro ⟨m, hm, rfl⟩
    exact herror m hm

/-- The use of the second definition comes again, its key with an escaped letter, before it can lack a name and
before the third one does. -/
theorem Definition.ofJson_of_objects_repeated :
    let text := "\x7b\"filters\":[\x7b\"name\":\"a\",\"expression\":\"b\"\x7d,\x7b\"enabled\":true,\"x\":[1]," ++
      "\"\\u0065nabled\":false\x7d,\x7b\x7d]\x7d"
    let objects := [[("name", ['"', 'a', '"']), ("expression", ['"', 'b', '"'])],
      [("enabled", booleanWord true), ("x", ['[', '1', ']']), ("enabled", booleanWord false)], []]
    Lists text objects ∧ FirstFlaw objects (.duplicateField "enabled") ∧
      ofJson text = .error (.mismatch (.duplicateField "enabled")) := by
  intro text objects
  have hnil : Space [] := space_nil
  have henabled : ∀ b, WellTyped ("enabled", booleanWord b) := fun b => ⟨⟨"", "", .including, b⟩, .enabled⟩
  -- the first object
  have hmembers : MembersSpelled ⟨"a", "b", .including, true⟩
      [("name", ['"', 'a', '"']), ("expression", ['"', 'b', '"'])] :=
    { field := by
        intro member hmember
        rcases List.mem_pair.1 hmember with rfl | rfl
        · exact .name (stringSpelled_literal ['a'] (by decide))
        · exact .expression (stringSpelled_literal ['b'] (by decide))
      once := by decide
      name := by decide
      expression := by decide
      mode := by decide
      enabled := by decide }
  have htyped := hmembers.wellTyped
  have hfirst : ObjectSpelled _ [("name", ['"', 'a', '"']), ("expression", ['"', 'b', '"'])] :=
    .mk (.first hnil (.mk (stringSpelled_literal "name".toList (by decide)) hnil hnil)
      (.next hnil hnil (.mk (stringSpelled_literal "expression".toList (by decide)) hnil hnil) (.done hnil))) htyped
  -- the second one
  have hletter : FourHex ['0', '0', '6', '5'] (((0 * 16 + 0) * 16 + 6) * 16 + 5) :=
    .mk (by decide) (by decide) (by decide) (by decide)
  have he : CharSpelled _ 'e' := .unit hletter
  have hkey : StringSpelled _ "enabled" :=
    stringSpelled_ofList ['e', 'n', 'a', 'b', 'l', 'e', 'd'] (.cons he (textSpelled_literal (by decide)))
  have hdigits : Digits ['1'] := ⟨by decide, by decide⟩
  have hone : WellFormed ['1'] := .unsigned (.mk hdigits (.inr (by decide)) .none .none)
  have hother : WellFormed _ :=
    .array (.first hnil rfl (.done hnil)) fun v hv => by
      rw [List.mem_singleton.1 hv]
      exact hone
  have hsecond : ObjectSpelled _
      [("enabled", booleanWord true), ("x", ['[', '1', ']']), ("enabled", booleanWord false)] :=
    .mk (.first hnil (.mk (stringSpelled_literal "enabled".toList (by decide)) hnil hnil)
        (.next hnil hnil (.mk (stringSpelled_literal ['x'] (by decide)) hnil hnil)
          (.next hnil hnil (.mk hkey hnil hnil) (.done hnil))))
      (by
        intro member hmember
        simp only [List.mem_cons, List.not_mem_nil, or_false] at hmember
        rcases hmember with rfl | rfl | rfl
        · exact henabled true
        · exact ⟨⟨"", "", .including, true⟩, .other (by decide) hother⟩
        · exact henabled false)
  -- the document
  have hthird : ObjectSpelled _ [] := .mk (.done hnil) (List.forall_mem_nil _)
  have hlist : ObjectsSpelled _ objects :=
    .mk (.first hnil hfirst (.next hnil hnil hsecond (.next hnil hnil hthird (.done hnil))))
  have hdocument : DocumentLists _ objects :=
    @DocumentLists.object _ _ [] [] _
      (.first hnil (.mk (stringSpelled_literal "filters".toList (by decide)) hnil hnil) (.done hnil))
      (List.forall_mem_nil _) hlist
  have hlists : Lists text objects := .mk hnil hdocument hnil (by decide +kernel)
  have hflaw : FirstFlaw objects (.duplicateField "enabled") := by
    refine ⟨[_], _, [_], rfl, ?_, @Flawed.repeated [_, _] [] _ (by decide) (by decide) (by decide)⟩
    intro object hobject
    rw [List.mem_singleton.1 hobject]
    exact (exists_definition_iff htyped).1 ⟨_, hmembers⟩
  exact ⟨hlists, hflaw, ((ofJson_of_objects hlists).2.1 _).2 ⟨_, hflaw, rfl⟩⟩

end EventSieve
