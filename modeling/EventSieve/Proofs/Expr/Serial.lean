import Mathlib.Data.List.Basic
import EventSieve.Expr.Serial
import EventSieve.Proofs.Expr.Equality

/-!
# The serial form determines the tree

* `Serial.Same`: two stored values are the same when they differ at most in the order of fields.
* `Clause.ofSerial?`, `Expr.ofSerial?`: the clause and the tree that are stored. Fields are found by
  name, and a literal's number is read from its text.
* `Expr.ofSerial?_of_same`, by induction on the tree: **whatever is stored like a tree is read as it.**
* `Expr.serial_same_iff`: **two trees are stored alike exactly if they are equal.**
-/

namespace EventSieve

namespace Serial

/-- Stored values that are the same: texts that are equal, lists of the same values in order, and records
that have the same values under the same names, in whatever order. -/
inductive Same : Serial → Serial → Prop
  | text (s : String) : Same (text s) (text s)
  | list {xs ys : List Serial} : xs.length = ys.length →
      (∀ (i : ℕ) (x y : Serial), xs[i]? = some x → ys[i]? = some y → Same x y) →
      Same (list xs) (list ys)
  | record {xs ys : List (String × Serial)} : xs.length = ys.length →
      (∀ key, xs.lookup key = none ↔ ys.lookup key = none) →
      (∀ key x y, xs.lookup key = some x → ys.lookup key = some y → Same x y) →
      Same (record xs) (record ys)

/-- What is looked up in a list of fields is smaller than the list. -/
theorem sizeOf_lt_of_lookup {fields : List (String × Serial)} {key : String} {v : Serial}
    (h : fields.lookup key = some v) : sizeOf v < sizeOf fields := by
  induction fields with
  | nil => cases h
  | cons field fields ih =>
    obtain ⟨k, w⟩ := field
    rw [List.lookup_cons] at h
    simp only [List.cons.sizeOf_spec, Prod.mk.sizeOf_spec]
    split at h
    · cases h
      omega
    · have := ih h
      omega

theorem Same.refl : (s : Serial) → Same s s
  | .text t => .text t
  | .list xs => .list rfl fun i x y hx hy => by
      have hmem : x ∈ xs := List.mem_of_getElem? hx
      have hlt := List.sizeOf_lt_of_mem hmem
      cases hx.symm.trans hy
      exact Same.refl x
  | .record fields => .record rfl (fun _ => Iff.rfl) fun key x y hx hy => by
      have hlt := sizeOf_lt_of_lookup hx
      cases hx.symm.trans hy
      exact Same.refl x
termination_by s => sizeOf s
decreasing_by all_goals (simp; omega)

/-- Where no name occurs twice, the order of fields does not matter to a look-up. -/
theorem lookup_eq_of_perm {xs ys : List (String × Serial)} (h : xs.Perm ys)
    (hnames : (xs.map Prod.fst).Nodup) (key : String) : xs.lookup key = ys.lookup key := by
  induction h with
  | nil => rfl
  | cons field h ih =>
    rw [List.map_cons, List.nodup_cons] at hnames
    rw [List.lookup_cons, List.lookup_cons, ih hnames.2]
  | swap f g fields =>
    have hne : g.1 ≠ f.1 := fun heq => (List.nodup_cons.1 hnames).1 (heq ▸ List.mem_cons_self)
    rw [List.lookup_cons, List.lookup_cons, List.lookup_cons, List.lookup_cons]
    cases hf : key == f.1 with
    | false => rfl
    | true =>
      have hg : (key == g.1) = false := beq_eq_false_iff_ne.2 (beq_iff_eq.1 hf ▸ hne.symm)
      rw [hg]
  | trans h₁ _ ih₁ ih₂ =>
    rw [ih₁ hnames]
    exact ih₂ ((h₁.map Prod.fst).nodup_iff.1 hnames)

/-- **The order of fields does not matter.** -/
theorem Same.of_perm {xs ys : List (String × Serial)} (h : xs.Perm ys)
    (hnames : (xs.map Prod.fst).Nodup) : Same (.record xs) (.record ys) := by
  have hlookup := lookup_eq_of_perm h hnames
  refine .record h.length_eq (fun key => by rw [hlookup]) fun key x y hx hy => ?_
  rw [hlookup key] at hx
  cases hx.symm.trans hy
  exact .refl x

/-- The value of a field of a record. -/
def field? : Serial → String → Option Serial
  | record fields, key => fields.lookup key
  | text _, _ | list _, _ => none

/-- A stored text. -/
def text? : Serial → Option String
  | text s => some s
  | list _ | record _ => none

variable {s t v : Serial} {key : String}

theorem Same.text?_eq (h : Same s t) : s.text? = t.text? := by
  cases h <;> rfl

theorem field?_record (fields : List (String × Serial)) (key : String) :
    (record fields).field? key = fields.lookup key := rfl

/-- Values that are the same have the same fields. -/
theorem Same.field? (h : Same s t) (key : String) :
    (s.field? key = none ∧ t.field? key = none) ∨
    ∃ x y, s.field? key = some x ∧ t.field? key = some y ∧ Same x y := by
  cases h with
  | text => exact .inl ⟨rfl, rfl⟩
  | list => exact .inl ⟨rfl, rfl⟩
  | @record xs ys _ hkeys hvalues =>
    rw [field?_record, field?_record]
    cases hx : xs.lookup key with
    | none => exact .inl ⟨rfl, (hkeys key).1 hx⟩
    | some x =>
      cases hy : ys.lookup key with
      | none => cases hx.symm.trans ((hkeys key).2 hy)
      | some y => exact .inr ⟨x, y, rfl, rfl, hvalues key x y hx hy⟩

/-- The text under a name. -/
def textAt? (s : Serial) (key : String) : Option String := (s.field? key).bind text?

theorem Same.textAt?_eq (h : Same s t) (key : String) : s.textAt? key = t.textAt? key := by
  unfold textAt?
  rcases h.field? key with ⟨hs, ht⟩ | ⟨x, y, hs, ht, hxy⟩
  · rw [hs, ht]
  · rw [hs, ht]
    exact hxy.text?_eq

/-- Records of one field are the same if its values are. -/
theorem Same.single (h : Same s t) (key : String) : Same (.record [(key, s)]) (.record [(key, t)]) := by
  refine .record rfl (fun k => ?_) fun k x y hx hy => ?_
  · rw [List.lookup_cons, List.lookup_cons]
    cases k == key <;> simp
  · rw [List.lookup_cons] at hx hy
    cases hk : k == key with
    | true =>
      rw [hk] at hx hy
      cases hx
      cases hy
      exact h
    | false =>
      rw [hk] at hx
      cases hx

/-- What is the same as a record of one field is such a record. -/
theorem Same.eq_record (h : Same s (.record [(key, v)])) : ∃ x, s = .record [(key, x)] ∧ Same x v := by
  cases h with
  | @record xs _ hlength hkeys hvalues =>
    obtain ⟨⟨key', x⟩, rfl⟩ := List.length_eq_one_iff.1 hlength
    -- the one name that there is has to be the same
    have hkey : key = key' := by
      by_contra hne
      have hbeq : (key == key') = false := beq_eq_false_iff_ne.2 hne
      have hnone : [(key', x)].lookup key = none := by rw [List.lookup_cons, hbeq, List.lookup_nil]
      cases List.lookup_cons_self.symm.trans ((hkeys key).1 hnone)
    subst hkey
    exact ⟨x, rfl, hvalues key x v List.lookup_cons_self List.lookup_cons_self⟩

/-- What is the same as a list of two values is such a list. -/
theorem Same.eq_list {v w : Serial} (h : Same s (.list [v, w])) :
    ∃ x y, s = .list [x, y] ∧ Same x v ∧ Same y w := by
  cases h with
  | @list xs _ hlength hitems =>
    obtain ⟨x, y, rfl⟩ := List.length_eq_two.1 hlength
    exact ⟨x, y, rfl, hitems 0 x v rfl rfl, hitems 1 y w rfl rfl⟩

end Serial

/-- All operators. -/
def Operator.all : List Operator := [equal, notEqual, less, lessEqual, greater, greaterEqual, contains]

/-- The operator of a name. -/
def Operator.ofName? (name : String) : Option Operator := all.find? fun operator => operator.name == name

/-- **No two operators share a name.** -/
theorem Operator.ofName?_name (operator : Operator) : ofName? operator.name = some operator := by
  cases operator <;> rfl

/-- The connective of a name. -/
def Connective.ofName? (name : String) : Option Connective :=
  if name = "and" then some .and else if name = "or" then some .or else none

theorem Connective.ofName?_name (k : Connective) : ofName? k.name = some k := by
  cases k <;> rfl

/-- The clause that is stored. Its event name may be missing, and the number of its literal is read from
the literal's text. -/
def Clause.ofSerial? (s : Serial) : Option Clause := do
  let property ← s.textAt? "property"
  let operator ← (s.textAt? "operator").bind Operator.ofName?
  let literal ← (s.field? "literal").bind fun literal => literal.textAt? "text"
  return ⟨s.textAt? "event_name", property, operator, .ofText literal⟩

/-- The tree that is stored. -/
def Expr.ofSerial? : Serial → Option Expr
  | .record [(key, .list [left, right])] => do
    return join (← Connective.ofName? key) (← ofSerial? left) (← ofSerial? right)
  | .record [(key, .record fields)] =>
    if key = "clause" then (Clause.ofSerial? (.record fields)).map clause else none
  | _ => none

variable {s : Serial}

/-- What is stored of a clause, and under which names. -/
theorem Clause.stored (c : Clause) : let s : Serial := .record c.serialFields
    s.textAt? "event_name" = c.eventName ∧ s.textAt? "property" = some c.property ∧
    s.textAt? "operator" = some c.operator.name ∧ s.field? "literal" = some c.literal.serial := by
  obtain ⟨eventName, property, operator, literal⟩ := c
  cases eventName with
  | none => exact ⟨rfl, rfl, rfl, rfl⟩
  | some name => exact ⟨rfl, rfl, rfl, rfl⟩

/-- **Whatever is stored like a clause is read as that clause.** -/
theorem Clause.ofSerial?_of_same {c : Clause} (h : s.Same (.record c.serialFields)) :
    ofSerial? s = some c := by
  obtain ⟨heventName, hproperty, hoperator, hstored⟩ := c.stored
  have hliteral : (s.field? "literal").bind (fun v => v.textAt? "text") = some c.literal.text := by
    rcases h.field? "literal" with ⟨-, hnone⟩ | ⟨x, y, hx, hy, hsame⟩
    · cases hstored.symm.trans hnone
    · cases hstored.symm.trans hy
      rw [hx, Option.bind_some, hsame.textAt?_eq]
      rfl
  -- the number that is not stored is the one that the text reads as
  have hnumber : Literal.ofText c.literal.text = c.literal := Literal.ext_text rfl
  unfold ofSerial?
  rw [h.textAt?_eq, h.textAt?_eq, h.textAt?_eq, heventName, hproperty, hoperator, hliteral,
    Option.bind_some, Operator.ofName?_name]
  simp only [Option.bind_eq_bind, Option.bind_some, hnumber]
  rfl

namespace Expr

/-- **Whatever is the same as a tree's serial form is read as that tree.** -/
theorem ofSerial?_of_same {e : Expr} (h : s.Same e.serial) : ofSerial? s = some e := by
  induction e generalizing s with
  | clause c =>
    obtain ⟨x, rfl, hx⟩ := Serial.Same.eq_record h
    have hclause := Clause.ofSerial?_of_same hx
    cases hx with
    | record => rw [ofSerial?, if_pos rfl, hclause, Option.map_some]
  | join k left right ihl ihr =>
    obtain ⟨x, rfl, hx⟩ := Serial.Same.eq_record h
    obtain ⟨l, r, rfl, hl, hr⟩ := Serial.Same.eq_list hx
    rw [ofSerial?, ihl hl, ihr hr, Connective.ofName?_name]
    rfl

/-- **The serial form determines the tree.** Two trees are stored as the same value exactly if they are
equal, also when the order of fields does not count; and every tree is read back from its serial form, and
from whatever is the same, although neither a literal's number nor the lack of an event name is stored. -/
theorem serial_same_iff (a b : Expr) :
    (a.serial.Same b.serial ↔ (a == b) = true) ∧ (a.serial = b.serial ↔ (a == b) = true) ∧
    ofSerial? a.serial = some a ∧ ∀ s : Serial, s.Same a.serial → ofSerial? s = some a := by
  have hself : ofSerial? a.serial = some a := ofSerial?_of_same (.refl _)
  have hsame : a.serial.Same b.serial → (a == b) = true := by
    intro h
    have hb : ofSerial? a.serial = some b := ofSerial?_of_same h
    rw [hself] at hb
    exact beq_iff_eq.2 (Option.some.inj hb)
  refine ⟨⟨hsame, fun h => ?_⟩, ⟨fun h => hsame (h ▸ .refl _), fun h => ?_⟩, hself,
    fun _ => ofSerial?_of_same⟩
  · rw [eq_of_beq h]
    exact .refl _
  · rw [eq_of_beq h]

/-- A clause whose fields are stored in the opposite order is read as the clause. -/
theorem serial_same_iff_reversed :
    let c : Clause := ⟨some "GC/Start", "Depth", .greaterEqual, .ofText "0x2"⟩
    let s : Serial := .record [("clause", .record [("literal", .record [("text", .text "0x2")]),
      ("operator", .text "GreaterEqual"), ("property", .text "Depth"), ("event_name", .text "GC/Start")])]
    s.Same (clause c).serial ∧ s ≠ (clause c).serial ∧ ofSerial? s = some (clause c) := by
  intro c s
  have hfields : (Serial.record c.serialFields.reverse).Same (.record c.serialFields) :=
    .of_perm (List.reverse_perm _) (by decide)
  have hsame : s.Same (clause c).serial := hfields.single "clause"
  have hread := (serial_same_iff (clause c) (clause c)).2.2.2 s hsame
  refine ⟨hsame, fun heq => ?_, hread⟩
  injection heq with hlist
  simp [Clause.serialFields, c] at hlist

end Expr

end EventSieve
