import Std.Data.HashMap.Lemmas
import Std.Data.TreeMap.Lemmas
import Mathlib.Data.List.Basic
import Mathlib.Data.List.Nodup
import EventSieve.Event.Fields
import EventSieve.Proofs.Expr.Verdict
import EventSieve.Sieve.Basic

/-!
# One verdict for events of all kinds

A list of fields makes a record, a map, a record copied from the map, and a row. What a name stands
for is found in four ways; here each is a look-up in the list of the names that have a value.

* `fieldTexts`: the fields that have a value, with its text.
* `get?_foldl`: **in whatever is filled in order, the last value of a name counts.**
* `Record.get?_ofMap`: copying a map changes no property, in whatever order it is gone through.
* `TypedRow.get?_ofFields`: the first position of a name counts, which is the only one when no name
  occurs twice.
* `Sieve.accepts_ofFields`: **the events of a list of fields get one verdict.**
-/

namespace EventSieve

/-- The fields that have a value, each with the value's text. -/
def fieldTexts (fields : List Field) : List (String × String) :=
  fields.filterMap fun (key, value?) => value?.map fun value => (key, value.spelling)

variable {pairs : List (String × String)} {fields : List Field} {name key text : String}

/-- When no key occurs twice, a look-up finds every pair. -/
theorem lookup_eq_some_iff_mem (h : (pairs.map Prod.fst).Nodup) :
    pairs.lookup key = some text ↔ (key, text) ∈ pairs := by
  induction pairs with
  | nil => simp
  | cons pair pairs ih =>
    obtain ⟨k, t⟩ := pair
    rw [List.map_cons, List.nodup_cons] at h
    rw [List.lookup_cons, List.mem_cons]
    by_cases hk : key = k
    · -- the first pair has the key, so no other one has
      subst hk
      have hout : (key, text) ∉ pairs := fun hm => h.1 (List.mem_map.2 ⟨_, hm, rfl⟩)
      simp [hout, eq_comm]
    · have hne : (key == k) = false := beq_eq_false_iff_ne.2 hk
      rw [hne, ih h.2]
      simp [hk]

/-- When no key occurs twice, the first pair of a key is the last one. -/
theorem lookup_reverse (h : (pairs.map Prod.fst).Nodup) :
    pairs.reverse.lookup key = pairs.lookup key := by
  have hr : (pairs.reverse.map Prod.fst).Nodup := by
    rw [List.map_reverse]
    exact List.nodup_reverse.2 h
  refine Option.ext fun text => ?_
  rw [lookup_eq_some_iff_mem hr, lookup_eq_some_iff_mem h, List.mem_reverse]

/-- **The last value of a key counts** in whatever is filled pair by pair, when a key just set is
found with its new value and the others are found as before. -/
theorem get?_foldl {σ : Type} (get? : σ → String → Option String) {set : σ → String × String → σ}
    (hset : ∀ s pair k, get? (set s pair) k = if pair.1 = k then some pair.2 else get? s k)
    (pairs : List (String × String)) (s : σ) (key : String) :
    get? (pairs.foldl set s) key = (pairs.reverse.lookup key).or (get? s key) := by
  induction pairs generalizing s with
  | nil => rfl
  | cons pair pairs ih =>
    have hone : (if pair.1 = key then some pair.2 else get? s key) =
        ([pair].lookup key).or (get? s key) := by
      obtain ⟨k, t⟩ := pair
      by_cases hk : k = key
      · simp [hk]
      · have hne : (key == k) = false := beq_eq_false_iff_ne.2 (Ne.symm hk)
        simp [List.lookup_cons, hk, hne]
    rw [List.foldl_cons, ih, hset, hone, List.reverse_cons, List.lookup_append, Option.or_assoc]

namespace Record

/-- A record with properties set in order. -/
def setAll (r : Record) (pairs : List (String × String)) : Record :=
  pairs.foldl (fun r pair => r.set pair.1 pair.2) r

theorem get?_set (r : Record) (key value k : String) :
    (r.set key value).get? k = if key = k then some value else r.get? k := by
  change (r.properties.insert key value)[k]? = _
  rw [Std.TreeMap.getElem?_insert]
  simp only [Std.LawfulEqCmp.compare_eq_iff_eq]
  rfl

theorem name_setAll (r : Record) (pairs : List (String × String)) :
    (r.setAll pairs).name = r.name := by
  unfold setAll
  induction pairs generalizing r with
  | nil => rfl
  | cons pair pairs ih => rw [List.foldl_cons, ih, set]

theorem get?_setAll (pairs : List (String × String)) (key : String) :
    ((ofName name).setAll pairs).get? key = pairs.reverse.lookup key := by
  have h := get?_foldl get? (fun r pair k => get?_set r pair.1 pair.2 k) pairs (ofName name) key
  have hnone : (ofName name).get? key = none := Std.TreeMap.getElem?_emptyc
  rwa [hnone, Option.or_none] at h

theorem ofFields_eq (name : String) (fields : List Field) :
    ofFields name fields = (ofName name).setAll (fieldTexts fields) := by
  unfold ofFields setAll fieldTexts
  rw [List.foldl_filterMap]
  congr 1
  funext r field
  obtain ⟨key, _ | value⟩ := field <;> rfl

/-- **A property of a record made of fields** is the last value that its name is given. -/
theorem get?_ofFields (name : String) (fields : List Field) (key : String) :
    (ofFields name fields).get? key = (fieldTexts fields).reverse.lookup key := by
  rw [ofFields_eq, get?_setAll]

/-- **Copying a map changes no property**: its entries have different keys, so that their order does
not matter. -/
theorem get?_ofMap (name : String) (properties : Std.HashMap String String) (key : String) :
    (ofMap name properties).get? key = properties[key]? := by
  have hkeys : (properties.toList.map Prod.fst).Nodup := by
    rw [Std.HashMap.map_fst_toList_eq_keys]
    exact Std.HashMap.nodup_keys
  have hget : (ofMap name properties).get? key = properties.toList.reverse.lookup key :=
    get?_setAll properties.toList key
  refine Option.ext fun text => ?_
  rw [hget, lookup_reverse hkeys, lookup_eq_some_iff_mem hkeys,
    Std.HashMap.mem_toList_iff_getElem?_eq_some]

end Record

/-- **A property of a map made of fields** is the last value that its name is given. -/
theorem NamedMap.get?_ofFields (name : String) (fields : List Field) (key : String) :
    (ofFields name fields).get? key = (fieldTexts fields).reverse.lookup key := by
  have hset : ∀ (m : Std.HashMap String String) (pair : String × String) (k : String),
      (m.insert pair.1 pair.2)[k]? = if pair.1 = k then some pair.2 else m[k]? := by
    intro m pair k
    simp only [Std.HashMap.getElem?_insert, beq_iff_eq]
  have hfold : fields.foldl addField ∅ =
      (fieldTexts fields).foldl (fun m pair => m.insert pair.1 pair.2) ∅ := by
    unfold fieldTexts
    rw [List.foldl_filterMap]
    congr 1
    funext m field
    obtain ⟨key, _ | value⟩ := field <;> rfl
  have h := get?_foldl (fun (m : Std.HashMap String String) k => m[k]?) hset (fieldTexts fields) ∅ key
  rw [Std.HashMap.getElem?_empty, Option.or_none, ← hfold] at h
  exact h

namespace TypedRow

/-- In a row made of fields a name is looked for from the front. -/
theorem get?_ofFields_cons (field : Field) (fields : List Field) :
    (ofFields name (field :: fields)).get? key =
      if field.1 = key then field.2.map TypedValue.spelling else (ofFields name fields).get? key := by
  unfold get? ofFields
  simp only [List.map_cons, List.findIdx?_cons, beq_iff_eq]
  split
  · rfl
  · rw [Option.bind_map]
    rfl

end TypedRow

/-- Only names of fields have texts. -/
theorem lookup_fieldTexts_eq_none (h : key ∉ fields.map Prod.fst) :
    (fieldTexts fields).lookup key = none := by
  rw [List.lookup_eq_none_iff]
  intro pair hpair
  obtain ⟨⟨k, value?⟩, hm, hv⟩ := List.mem_filterMap.1 hpair
  obtain ⟨value, -, rfl⟩ := Option.map_eq_some_iff.1 hv
  have hne : key ≠ k := fun hk => h (List.mem_map.2 ⟨_, hm, hk.symm⟩)
  exact bne_iff_ne.2 hne

/-- The names that have a value are names of fields, in the same order. -/
theorem fieldTexts_sublist (fields : List Field) :
    ((fieldTexts fields).map Prod.fst).Sublist (fields.map Prod.fst) := by
  unfold fieldTexts
  induction fields with
  | nil => exact .slnil
  | cons field fields ih =>
    obtain ⟨key, _ | value⟩ := field
    · exact ih.cons key
    · exact ih.cons_cons key

/-- **A property of a row made of fields**, no two of one name, is the value that its name is given. -/
theorem TypedRow.get?_ofFields (name : String) (key : String) (h : (fields.map Prod.fst).Nodup) :
    (ofFields name fields).get? key = (fieldTexts fields).lookup key := by
  induction fields with
  | nil => rfl
  | cons field fields ih =>
    obtain ⟨k, value?⟩ := field
    rw [List.map_cons, List.nodup_cons] at h
    rw [get?_ofFields_cons, ih h.2]
    by_cases hk : k = key
    · subst hk
      rw [if_pos rfl]
      cases value? with
      | none =>
        -- the name has no value here, and no other field has the name
        exact (lookup_fieldTexts_eq_none h.1).symm
      | some value => exact (List.lookup_cons_self).symm
    · rw [if_neg hk]
      have hne : (key == k) = false := beq_eq_false_iff_ne.2 (Ne.symm hk)
      cases value? with
      | none => rfl
      | some value =>
        change _ = ((k, value.spelling) :: fieldTexts fields).lookup key
        rw [List.lookup_cons, hne]

/-- **The events of a list of fields get one verdict from every sieve.** In the record a property is
the last value that its name is given, names without a value left out; the map, and the record copied
from the map, get the verdict of the record whatever names repeat, and so does the row when no name
occurs twice. -/
theorem Sieve.accepts_ofFields (s : Sieve) (name : String) (fields : List Field) :
    (∀ key, EventLike.property? (Record.ofFields name fields) key =
      (fieldTexts fields).reverse.lookup key) ∧
    s.accepts (NamedMap.ofFields name fields) = s.accepts (Record.ofFields name fields) ∧
    s.accepts (NamedMap.ofFields name fields).toRecord = s.accepts (Record.ofFields name fields) ∧
    ((fields.map Prod.fst).Nodup →
      s.accepts (TypedRow.ofFields name fields) = s.accepts (Record.ofFields name fields)) := by
  have hrecord : (Record.ofFields name fields).name = name := by
    rw [Record.ofFields_eq, Record.name_setAll]
    rfl
  have hcopy : (NamedMap.ofFields name fields).toRecord.name = name :=
    Record.name_setAll (Record.ofName name) _
  refine ⟨Record.get?_ofFields name fields, ?_, ?_, fun hnodup => ?_⟩
  · refine Expr.holdsOf_congr hrecord.symm (fun key => ?_) s.root
    exact (NamedMap.get?_ofFields name fields key).trans (Record.get?_ofFields name fields key).symm
  · refine Expr.holdsOf_congr (hcopy.trans hrecord.symm) (fun key => ?_) s.root
    calc (NamedMap.ofFields name fields).toRecord.get? key
        = (NamedMap.ofFields name fields).get? key := Record.get?_ofMap _ _ key
      _ = (fieldTexts fields).reverse.lookup key := NamedMap.get?_ofFields name fields key
      _ = (Record.ofFields name fields).get? key := (Record.get?_ofFields name fields key).symm
  · have htexts : ((fieldTexts fields).map Prod.fst).Nodup := hnodup.sublist (fieldTexts_sublist fields)
    refine Expr.holdsOf_congr hrecord.symm (fun key => ?_) s.root
    calc (TypedRow.ofFields name fields).get? key
        = (fieldTexts fields).lookup key := TypedRow.get?_ofFields name key hnodup
      _ = (fieldTexts fields).reverse.lookup key := (lookup_reverse htexts).symm
      _ = (Record.ofFields name fields).get? key := (Record.get?_ofFields name fields key).symm

/-- A negative number, a name without a value and a text: the row's verdict is the record's. -/
theorem Sieve.accepts_ofFields_mixed :
    let fields : List Field := [("Depth", some (.int (-3))), ("Gone", none), ("Why", some (.text "x"))]
    let s : Sieve := ⟨"Depth < 0 && E::Why == x", .join .and
      (.clause ⟨none, "Depth", .less, .ofText "0"⟩) (.clause ⟨some "E", "Why", .equal, .ofText "x"⟩)⟩
    (fields.map Prod.fst).Nodup ∧ s.accepts (TypedRow.ofFields "E" fields) = true ∧
    s.accepts (Record.ofFields "E" fields) = true := by
  intro fields s
  have hnodup : (fields.map Prod.fst).Nodup := by decide
  have hrow : s.accepts (TypedRow.ofFields "E" fields) = true := by
    rw [accepts, Expr.holdsOf_eq_denote]
    decide
  exact ⟨hnodup, hrow, (s.accepts_ofFields "E" fields).2.2.2 hnodup ▸ hrow⟩

end EventSieve
