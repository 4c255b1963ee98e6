import EventSieve.Clause.Reader
import EventSieve.Proofs.Text.Trim
import EventSieve.Proofs.Token.Unmarked

/-!
# The characters of a clause

Blanks, operator characters and property characters exclude each other, and a property has no
character that occurs in a mark or in `::`. So a property ends where the text around it begins.
-/

namespace EventSieve

variable {c : Char}

/-- The code points of blank characters. -/
def Text.blankCodes : List Nat :=
  [0x09, 0x0A, 0x0B, 0x0C, 0x0D, 0x20, 0x85, 0xA0, 0x1680, 0x2000, 0x2001, 0x2002, 0x2003, 0x2004,
    0x2005, 0x2006, 0x2007, 0x2008, 0x2009, 0x200A, 0x2028, 0x2029, 0x202F, 0x205F, 0x3000]

theorem Text.mem_blankCodes (h : Text.isBlank c = true) : c.toNat ∈ Text.blankCodes := by
  simp only [Text.isBlank, Bool.or_eq_true, Bool.and_eq_true, decide_eq_true_eq, beq_iff_eq] at h
  simp only [Text.blankCodes, List.mem_cons, List.not_mem_nil, or_false]
  omega

/-- No blank is a letter or a number. -/
theorem Text.isAlphanumeric_of_isBlank (h : Text.isBlank c = true) :
    Text.isAlphanumeric c = false := by
  have hall : ∀ n ∈ Text.blankCodes, Text.isAlphanumeric (Char.ofNat n) = false := by
    decide +kernel
  rw [← Char.ofNat_toNat c]
  exact hall c.toNat (Text.mem_blankCodes h)

theorem inProperty_of_isBlank (h : Text.isBlank c = true) : inProperty c = false := by
  unfold inProperty
  rw [Text.isAlphanumeric_of_isBlank h, Bool.false_or, Bool.or_eq_false_iff]
  constructor
  · rw [beq_eq_false_iff_ne]
    rintro rfl
    exact absurd h (by decide)
  · rw [beq_eq_false_iff_ne]
    rintro rfl
    exact absurd h (by decide)

theorem isBlank_of_inProperty (h : inProperty c = true) : Text.isBlank c = false :=
  Text.eq_false_of_excludes inProperty_of_isBlank h

/-- The four characters of symbolic operators. -/
theorem inOperator_iff : inOperator c = true ↔ c = '<' ∨ c = '>' ∨ c = '=' ∨ c = '!' := by
  simp only [inOperator, Bool.or_eq_true, beq_iff_eq, or_assoc]

theorem inProperty_of_inOperator (h : inOperator c = true) : inProperty c = false := by
  rcases inOperator_iff.1 h with rfl | rfl | rfl | rfl <;> decide

theorem isBlank_of_inOperator (h : inOperator c = true) : Text.isBlank c = false := by
  rcases inOperator_iff.1 h with rfl | rfl | rfl | rfl <;> decide

theorem special_of_inOperator (h : inOperator c = true) : special c = false := by
  rcases inOperator_iff.1 h with rfl | rfl | rfl | rfl <;> decide

theorem inEventName_iff :
    inEventName c = true ↔ Text.isBlank c = false ∧ inOperator c = false := by
  simp only [inEventName, Bool.and_eq_true, Bool.not_eq_true']

/-- A property's characters may also occur in an event's name. -/
theorem inEventName_of_inProperty (h : inProperty c = true) : inEventName c = true :=
  inEventName_iff.2
    ⟨isBlank_of_inProperty h, Text.eq_false_of_excludes inProperty_of_inOperator h⟩

theorem special_of_inProperty (h : inProperty c = true) : special c = false := by
  refine Text.eq_false_of_excludes (fun hs => ?_) h
  simp only [special, Bool.or_eq_true, beq_iff_eq] at hs
  rcases hs with (((rfl | rfl) | rfl) | rfl) | rfl <;> decide

theorem ne_colon_of_inProperty (h : inProperty c = true) : c ≠ ':' := by
  rintro rfl
  exact absurd h (by decide)

end EventSieve
