import Mathlib.Data.List.Infix

/-!
# Byte offsets

* `byteLength`: the length of a text in bytes of UTF-8, which is the offset of what follows it.
* `byteLength_concat`: a character adds its own bytes.
* `byteLength_lt`, `byteLength_le`, `isPrefix_of_byteLength_le`: **a longer part of a text ends at a
  greater offset**, and the other way round.
* `exists_concat_isPrefix_concat`: where a character stands in a text that got one more.
-/

namespace EventSieve.Text

/-- The length of a text in bytes of UTF-8. -/
def byteLength (s : List Char) : Nat := (String.ofList s).utf8ByteSize

variable {s u v : List Char} {c d : Char}

theorem byteLength_append (s t : List Char) : byteLength (s ++ t) = byteLength s + byteLength t := by
  unfold byteLength
  rw [String.ofList_append, String.utf8ByteSize_append]

theorem byteLength_singleton (c : Char) : byteLength [c] = c.utf8Size := by
  unfold byteLength
  rw [← String.singleton_eq_ofList, String.utf8ByteSize_singleton]

theorem byteLength_concat (s : List Char) (c : Char) :
    byteLength (s ++ [c]) = byteLength s + c.utf8Size := by
  rw [byteLength_append, byteLength_singleton]

theorem byteLength_cons (c : Char) (s : List Char) :
    byteLength (c :: s) = c.utf8Size + byteLength s := by
  rw [← List.singleton_append, byteLength_append, byteLength_singleton]

theorem byteLength_eq_zero_iff : byteLength s = 0 ↔ s = [] := by
  cases s with
  | nil => exact ⟨fun _ => rfl, fun _ => rfl⟩
  | cons c s =>
    have hpos := c.utf8Size_pos
    rw [byteLength_cons]
    exact ⟨fun h => by omega, nofun⟩

/-- A text of ASCII is as long in bytes as it is in characters. -/
theorem byteLength_eq_length (h : ∀ c ∈ s, c.utf8Size = 1) : byteLength s = s.length := by
  induction s with
  | nil => rfl
  | cons c s ih =>
    rw [byteLength_cons, h c List.mem_cons_self, ih fun d hd => h d (List.mem_cons_of_mem c hd),
      List.length_cons, Nat.add_comm]

theorem byteLength_toList (text : String) : byteLength text.toList = text.utf8ByteSize := by
  unfold byteLength
  rw [String.ofList_toList]

theorem byteLength_le (h : u <+: s) : byteLength u ≤ byteLength s := by
  obtain ⟨v, rfl⟩ := h
  rw [byteLength_append]
  omega

/-- **A character stands before the end of its text.** -/
theorem byteLength_lt (h : u ++ [c] <+: s) : byteLength u < byteLength s := by
  have hle := byteLength_le h
  have hpos := c.utf8Size_pos
  rw [byteLength_concat] at hle
  omega

/-- Of two initial parts of a text, the one that ends first is an initial part of the other. -/
theorem isPrefix_of_byteLength_le (hu : u <+: s) (hv : v <+: s) (h : byteLength u ≤ byteLength v) :
    u <+: v := by
  rcases List.prefix_or_prefix_of_prefix hu hv with huv | ⟨w, rfl⟩
  · exact huv
  · cases w with
    | nil => rw [List.append_nil]
    | cons c w =>
      have hlt : byteLength v < byteLength (v ++ c :: w) := byteLength_lt (c := c) ⟨w, by simp⟩
      omega

/-- **The places of a character in a longer text** are its places in the text, and the one at its end
if the new character is it. -/
theorem exists_concat_isPrefix_concat {P : List Char → Prop} :
    (∃ u, u ++ [d] <+: s ++ [c] ∧ P u) ↔ (∃ u, u ++ [d] <+: s ∧ P u) ∨ c = d ∧ P s := by
  constructor
  · rintro ⟨u, hu, hP⟩
    rcases List.prefix_concat_iff.1 hu with hus | hus
    · obtain ⟨rfl, hd⟩ := List.append_inj' hus rfl
      exact .inr ⟨(List.singleton_inj.1 hd).symm, hP⟩
    · exact .inl ⟨u, hus, hP⟩
  · rintro (⟨u, hu, hP⟩ | ⟨rfl, hP⟩)
    · exact ⟨u, List.prefix_concat_iff.2 (.inr hu), hP⟩
    · exact ⟨s, List.prefix_refl _, hP⟩

end EventSieve.Text
