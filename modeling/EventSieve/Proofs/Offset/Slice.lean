import EventSieve.Expr.Error
import EventSieve.Proofs.Text.Offsets
import EventSieve.Text.Basic

/-!
# Slices of a text

A text lies in memory as its bytes in UTF-8, and a part of it is named by two byte offsets. Naming
one is safe only if the offsets are in order, within the text, and between two characters.

* `bytes`, `byteAt?`: a text as bytes.
* `isBoundary_iff`: **the boundaries of a text** are the ends of its initial parts.
* `part?`, `slice`: the part between two offsets; `slice` stops the program where there is none.
* `slice_append`, `slice_eq_error_iff`: what is between the ends of two initial parts, and **when a
  slice stops the program**.
* `exists_byteAt?_char`, `ne_of_inner`: **a byte of ASCII is a character of its own.**
* `offsetWhere?`, `runEnd`: where something is found first, as a byte offset.
* `slice_runEnd`, `offsetWhere?_pair`: what is found there.
-/

namespace EventSieve

/-- Why reading by offsets ends without a result: the text is refused, or a part of a text was named
by offsets that do not name one. The latter is no answer but the end of the program. -/
inductive Stop
  | refused (cause : ExprError)
  | badSlice (text : List Char) (start stop : Nat)

namespace Text

variable {s u v w : List Char} {c m : Char} {i j : Nat}

/-- The bytes of a text in UTF-8. -/
def bytes (s : List Char) : List UInt8 := s.flatMap String.utf8EncodeChar

/-- The byte at an offset, if the offset is within the text. -/
def byteAt? (s : List Char) (i : Nat) : Option UInt8 := (bytes s)[i]?

/-- Whether an offset is on a boundary of characters: at the end of the text, or at a byte that is
the first one of a character. -/
def isBoundary (s : List Char) (i : Nat) : Bool := String.Pos.Raw.isValid (String.ofList s) ⟨i⟩

/-- The part of a text between two offsets, if they are in order and on boundaries. -/
def part? (s : List Char) (start stop : Nat) : Option (List Char) :=
  if h : start ≤ stop ∧ isBoundary s start ∧ isBoundary s stop then
    some (String.extract
      (s := String.ofList s) ⟨⟨start⟩, String.Pos.Raw.isValid_eq_true_iff.1 h.2.1⟩
      ⟨⟨stop⟩, String.Pos.Raw.isValid_eq_true_iff.1 h.2.2⟩).toList
  else none

/-- The part of a text between two offsets, which the program relies on being there. -/
def slice (s : List Char) (start stop : Nat) : Except Stop (List Char) :=
  match part? s start stop with
  | some part => .ok part
  | none => .error (.badSlice s start stop)

theorem bytes_append (u v : List Char) : bytes (u ++ v) = bytes u ++ bytes v := List.flatMap_append

theorem toByteArray_ofList (s : List Char) : (String.ofList s).toByteArray = (bytes s).toByteArray :=
  String.toByteArray_ofList

@[simp] theorem size_toByteArray_bytes (s : List Char) : (bytes s).toByteArray.size = byteLength s := by
  rw [byteLength, ← String.size_toByteArray, toByteArray_ofList]

theorem length_bytes (s : List Char) : (bytes s).length = byteLength s := by
  rw [← size_toByteArray_bytes, List.size_toByteArray]

/-- **The boundaries of a text are the ends of its initial parts.** -/
theorem isBoundary_iff : isBoundary s i = true ↔ ∃ u v, s = u ++ v ∧ i = byteLength u := by
  rw [isBoundary, String.Pos.Raw.isValid_eq_true_iff, String.Pos.Raw.isValid_iff_exists_append]
  constructor
  · rintro ⟨u, v, hs, hi⟩
    refine ⟨u.toList, v.toList, ?_, ?_⟩
    · rw [← String.toList_append, ← hs, String.toList_ofList]
    · rw [byteLength_toList]
      exact congrArg String.Pos.Raw.byteIdx hi
  · rintro ⟨u, v, rfl, rfl⟩
    exact ⟨.ofList u, .ofList v, String.ofList_append, rfl⟩

example : isBoundary ['é', 'x'] 1 = false ∧ isBoundary ['é', 'x'] 2 = true := by decide

theorem isBoundary_append (u v : List Char) : isBoundary (u ++ v) (byteLength u) = true :=
  isBoundary_iff.2 ⟨u, v, rfl, rfl⟩

theorem le_byteLength_of_isBoundary (h : isBoundary s i = true) : i ≤ byteLength s := by
  obtain ⟨u, v, rfl, rfl⟩ := isBoundary_iff.1 h
  exact byteLength_le (List.prefix_append u v)

/-- What is between the ends of two initial parts of a text. -/
theorem part?_append (u v w : List Char) :
    part? (u ++ v ++ w) (byteLength u) (byteLength (u ++ v)) = some v := by
  have hstart : isBoundary (u ++ v ++ w) (byteLength u) = true := by
    rw [List.append_assoc]
    exact isBoundary_append _ _
  have hle := byteLength_le (List.prefix_append u v)
  rw [part?, dif_pos ⟨hle, hstart, isBoundary_append _ _⟩, Option.some_inj]
  refine Eq.trans (congrArg String.toList ?_) (String.toList_ofList (l := v))
  -- the extracted bytes are those of the middle part
  rw [← String.toByteArray_inj, String.toByteArray_extract]
  simp only [toByteArray_ofList, bytes_append, List.toByteArray_append]
  have hbefore := ByteArray.extract_append_size_add (a := (bytes u).toByteArray)
    (b := (bytes v).toByteArray ++ (bytes w).toByteArray) (i := 0) (j := byteLength v)
  rw [size_toByteArray_bytes, Nat.add_zero, ← byteLength_append, ← ByteArray.append_assoc] at hbefore
  exact hbefore.trans (ByteArray.extract_append_eq_left (size_toByteArray_bytes v).symm)

theorem part?_prefix (u v : List Char) : part? (u ++ v) 0 (byteLength u) = some u := part?_append [] u v

/-- **A part of a text is there** when its offsets are the ends of two initial parts. -/
theorem part?_eq_some_iff : part? s i j = some v ↔
    ∃ u w, s = u ++ v ++ w ∧ i = byteLength u ∧ j = byteLength (u ++ v) := by
  constructor
  · intro h
    have hij : i ≤ j ∧ isBoundary s i = true ∧ isBoundary s j = true := by
      by_contra hn
      rw [part?, dif_neg hn] at h
      cases h
    obtain ⟨hle, hi, hj⟩ := hij
    obtain ⟨u, x, hs, rfl⟩ := isBoundary_iff.1 hi
    obtain ⟨y, w, rfl, rfl⟩ := isBoundary_iff.1 hj
    obtain ⟨z, rfl⟩ := isPrefix_of_byteLength_le ⟨x, hs.symm⟩ (List.prefix_append y w) hle
    rw [part?_append u z w, Option.some_inj] at h
    exact ⟨u, w, by rw [h], rfl, by rw [h]⟩
  · rintro ⟨u, w, rfl, rfl, rfl⟩
    exact part?_append u v w

theorem part?_zero_eq_some_iff : part? s 0 j = some v ↔ ∃ w, s = v ++ w ∧ j = byteLength v := by
  rw [part?_eq_some_iff]
  constructor
  · rintro ⟨u, w, hs, hu, hj⟩
    obtain rfl := byteLength_eq_zero_iff.1 hu.symm
    exact ⟨w, hs, hj⟩
  · rintro ⟨w, hs, hj⟩
    exact ⟨[], w, hs, rfl, hj⟩

theorem part?_eq_none_iff : part? s i j = none ↔
    ¬ (i ≤ j ∧ j ≤ byteLength s ∧ isBoundary s i = true ∧ isBoundary s j = true) := by
  unfold part?
  split
  · next h => simp [h, le_byteLength_of_isBoundary h.2.2]
  · next h =>
    simp only [true_iff]
    exact fun hall => h ⟨hall.1, hall.2.2⟩

theorem slice_append (u v w : List Char) :
    slice (u ++ v ++ w) (byteLength u) (byteLength (u ++ v)) = .ok v := by
  rw [slice, part?_append]

/-- An initial part of a text. -/
theorem slice_prefix (u v : List Char) : slice (u ++ v) 0 (byteLength u) = .ok u :=
  slice_append [] u v

/-- What follows an initial part of a text. -/
theorem slice_suffix (u v : List Char) :
    slice (u ++ v) (byteLength u) (byteLength (u ++ v)) = .ok v := by
  have h := slice_append u v []
  rwa [List.append_nil] at h

/-- **A slice stops the program** exactly when its offsets are out of order, not both within the text,
or not both on boundaries. -/
theorem slice_eq_error_iff : slice s i j = .error (.badSlice s i j) ↔
    ¬ (i ≤ j ∧ j ≤ byteLength s ∧ isBoundary s i = true ∧ isBoundary s j = true) := by
  rw [← part?_eq_none_iff]
  unfold slice
  split
  · next h => simp [h]
  · next h => simp [h]

theorem byteAt?_append (u v : List Char) (i : Nat) :
    byteAt? (u ++ v) (byteLength u + i) = byteAt? v i := by
  rw [byteAt?, bytes_append, ← length_bytes, List.getElem?_append_right (Nat.le_add_right _ _),
    Nat.add_sub_cancel_left]
  rfl

/-- The byte after an initial part is the first one of what follows. -/
theorem byteAt?_append_zero (u v : List Char) : byteAt? (u ++ v) (byteLength u) = byteAt? v 0 :=
  byteAt?_append u v 0

theorem byteAt?_eq_none_iff : byteAt? s i = none ↔ byteLength s ≤ i := by
  rw [byteAt?, List.getElem?_eq_none_iff, length_bytes]

theorem exists_byteAt?_of_lt (h : i < byteLength s) : ∃ b, byteAt? s i = some b := by
  refine Option.ne_none_iff_exists'.1 fun hn => ?_
  exact absurd (byteAt?_eq_none_iff.1 hn) (Nat.not_le_of_lt h)

/-- The bytes of a text's first character. -/
theorem byteAt?_cons (h : i < c.utf8Size) :
    byteAt? (c :: s) i = (String.utf8EncodeChar c)[i]? := by
  rw [byteAt?, bytes, List.flatMap_cons, List.getElem?_append_left]
  rwa [String.length_utf8EncodeChar]

/-- The bytes of a character outside ASCII. -/
theorem le_toNat_of_mem_utf8EncodeChar {b : UInt8} (hc : c.utf8Size ≠ 1)
    (hb : b ∈ String.utf8EncodeChar c) : 128 ≤ b.toNat := by
  have hlt : ¬ c.val.toNat ≤ 127 := fun hle => hc (Char.utf8Size_eq_one_iff.2 hle)
  rw [String.utf8EncodeChar.eq_1, if_neg hlt] at hb
  split at hb
  · simp only [List.mem_cons, List.not_mem_nil, or_false] at hb
    rcases hb with rfl | rfl <;> rw [UInt8.toNat_ofNat'] <;> omega
  · split at hb
    · simp only [List.mem_cons, List.not_mem_nil, or_false] at hb
      rcases hb with rfl | rfl | rfl <;> rw [UInt8.toNat_ofNat'] <;> omega
    · simp only [List.mem_cons, List.not_mem_nil, or_false] at hb
      rcases hb with rfl | rfl | rfl | rfl <;> rw [UInt8.toNat_ofNat'] <;> omega

theorem toNat_toUInt8_lt (hm : m.utf8Size = 1) : m.toUInt8.toNat = m.toNat ∧ m.toNat < 128 := by
  have hle : m.val.toNat ≤ 127 := Char.utf8Size_eq_one_iff.1 hm
  refine ⟨?_, Nat.lt_succ_of_le hle⟩
  show m.val.toUInt8.toNat = m.val.toNat
  rw [UInt32.toNat_toUInt8]
  omega

/-- **A byte that starts a character of ASCII is that character.** -/
theorem byteAt?_zero_eq_iff (hm : m.utf8Size = 1) :
    byteAt? s 0 = some m.toUInt8 ↔ s.head? = some m := by
  cases s with
  | nil => exact ⟨nofun, nofun⟩
  | cons c s =>
    rw [byteAt?_cons c.utf8Size_pos, List.head?_cons, Option.some_inj]
    obtain ⟨hm', hlt⟩ := toNat_toUInt8_lt hm
    by_cases hc : c.utf8Size = 1
    · rw [String.utf8EncodeChar_eq_singleton hc, List.getElem?_cons_zero, Option.some_inj]
      constructor
      · intro h
        have hc' := (toNat_toUInt8_lt hc).1
        rw [Char.toUInt8, h] at hc'
        exact Char.toNat_inj.1 (hc'.symm.trans hm')
      · rintro rfl
        rfl
    · constructor
      · intro h
        have hle := le_toNat_of_mem_utf8EncodeChar hc (List.mem_of_getElem? h)
        omega
      · rintro rfl
        exact absurd hm hc

/-- **The bytes inside a character** are none that a character of ASCII has. -/
theorem ne_of_inner {b : UInt8} (hm : m.utf8Size = 1) (hb : byteAt? (c :: s) i = some b)
    (hi : 0 < i) (hc : i < c.utf8Size) : b ≠ m.toUInt8 := by
  rintro rfl
  rw [byteAt?_cons hc] at hb
  have hle := le_toNat_of_mem_utf8EncodeChar (by omega) (List.mem_of_getElem? hb)
  have hlt := toNat_toUInt8_lt hm
  omega

/-- The first byte of a character tells whether it is a given one of ASCII. -/
theorem exists_byteAt?_char (u v : List Char) (c : Char) :
    ∃ b, byteAt? (u ++ c :: v) (byteLength u) = some b ∧
      ∀ m : Char, m.utf8Size = 1 → (b = m.toUInt8 ↔ c = m) := by
  have hpos : 0 < byteLength (c :: v) := by
    rw [byteLength_cons]
    exact Nat.add_pos_left c.utf8Size_pos _
  obtain ⟨b, hb⟩ := exists_byteAt?_of_lt hpos
  refine ⟨b, by rw [byteAt?_append_zero, hb], fun m hm => ?_⟩
  have h := byteAt?_zero_eq_iff (s := c :: v) hm
  rwa [hb, Option.some_inj, List.head?_cons, Option.some_inj] at h

/-- The byte offset of the first place in a text from which what follows passes a test. -/
def offsetWhere? (test : List Char → Bool) : List Char → Option Nat
  | [] => none
  | c :: s => if test (c :: s) then some 0 else (offsetWhere? test s).map (c.utf8Size + ·)

/-- The byte offset at which the longest run of characters that pass a test ends. -/
def runEnd (p : Char → Bool) (s : List Char) : Nat :=
  (offsetWhere? (·.head?.any (!p ·)) s).getD (byteLength s)

theorem runEnd_eq (p : Char → Bool) (s : List Char) :
    runEnd p s = byteLength (s.takeWhile p) := by
  unfold runEnd
  induction s with
  | nil => rfl
  | cons c s ih =>
    rw [offsetWhere?, List.takeWhile_cons, List.head?_cons, Option.any_some]
    cases hc : p c with
    | false => rfl
    | true =>
      rw [if_neg (by decide), if_pos rfl, byteLength_cons, byteLength_cons, ← ih]
      cases offsetWhere? (·.head?.any (!p ·)) s with
      | none => rfl
      | some i => rfl

/-- **The longest run** is sliced off where it ends. -/
theorem slice_runEnd (p : Char → Bool) (s : List Char) :
    slice s 0 (runEnd p s) = .ok (s.takeWhile p) := by
  have h := slice_prefix (s.takeWhile p) (s.dropWhile p)
  rwa [List.takeWhile_append_dropWhile, ← runEnd_eq] at h

/-- What is left after the longest run. -/
theorem slice_runEnd_rest (p : Char → Bool) (s : List Char) :
    slice s (runEnd p s) (byteLength s) = .ok (s.dropWhile p) := by
  have h := slice_suffix (s.takeWhile p) (s.dropWhile p)
  rwa [List.takeWhile_append_dropWhile, ← runEnd_eq] at h

/-- The place of the first pair, counted from before what was passed. -/
theorem offsetWhere?_cutAtPair (a b : Char) (passed s : List Char) :
    (cutAtPair a b passed s).map (byteLength ·.1) =
      (offsetWhere? ([a, b].isPrefixOf ·) s).map (byteLength passed.reverse + ·) := by
  induction s generalizing passed with
  | nil => rfl
  | cons c s ih =>
    cases s with
    | nil =>
      rw [offsetWhere?, if_neg (by simp [List.isPrefixOf])]
      rfl
    | cons d s =>
      have hpre : [a, b].isPrefixOf (c :: d :: s) = true ↔ c = a ∧ d = b := by
        rw [List.isPrefixOf_iff_prefix, List.cons_prefix_cons, List.cons_prefix_cons,
          and_iff_left List.nil_prefix, @eq_comm _ a, @eq_comm _ b]
      rw [cutAtPair, offsetWhere?]
      by_cases hcd : c = a ∧ d = b
      · rw [if_pos hcd, if_pos (hpre.2 hcd)]
        simp
      · rw [if_neg hcd, if_neg (mt hpre.1 hcd), ih, Option.map_map]
        congr 1
        funext i
        simp only [List.reverse_cons, byteLength_concat, Function.comp_apply, Nat.add_assoc]

/-- **The first pair** stands after what is cut off before it. -/
theorem offsetWhere?_pair (a b : Char) (s : List Char) :
    offsetWhere? ([a, b].isPrefixOf ·) s = (splitAtPair a b s).map (byteLength ·.1) := by
  have h := offsetWhere?_cutAtPair a b [] s
  rw [splitAtPair, h]
  cases offsetWhere? ([a, b].isPrefixOf ·) s with
  | none => rfl
  | some i => exact congrArg some (Nat.zero_add i).symm

end Text

end EventSieve
