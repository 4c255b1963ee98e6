import Mathlib.Tactic.Tauto
import EventSieve.Json.Reading
import EventSieve.Proofs.Text.Runs

/-!
# What a reader finds

* `Reading.Finds`: a reader's answer is a value with the rest of the document. Readers that are put
  together find what their parts find one after the other.
* `units`: a text as a part of a document.
* `Space`: the blanks that may stand between the parts of a document.
* `significant_finds`, `readMark_finds`, `readWord_finds`: **blanks do not count.**
* `ofBytes_toUTF8`: the bytes of a text make the same document as the text.
-/

namespace EventSieve.Json

namespace Reading

variable {α β : Type} {bound : ℕ} {r : Reading α bound} {a : α} {b : β} {s rest : Source}

/-- The answer is a value, with the rest of the document after it. -/
def Finds (r : Reading α bound) (a : α) (rest : Source) : Prop := ∃ within, r = .found a rest within

theorem here_finds (a : α) (s : Source) : (here a s).Finds a s := ⟨_, rfl⟩

theorem Finds.relax (h : r.Finds a rest) : r.relax.Finds a rest := by
  obtain ⟨within, rfl⟩ := h
  exact ⟨_, rfl⟩

theorem Finds.map (h : r.Finds a rest) (f : α → β) : (r.map f).Finds (f a) rest := by
  obtain ⟨within, rfl⟩ := h
  exact ⟨within, rfl⟩

theorem Finds.check {f : α → Except Defect β} (h : r.Finds a rest) (hf : f a = .ok b) :
    (r.check f).Finds b rest := by
  obtain ⟨within, rfl⟩ := h
  refine ⟨within, ?_⟩
  unfold Reading.check
  dsimp only
  rw [hf]

theorem Finds.andThen {next : α → (s : Source) → Reading β s.length} (h : r.Finds a s)
    (hnext : (next a s).Finds b rest) : (r.andThen next).Finds b rest := by
  obtain ⟨within, rfl⟩ := h
  obtain ⟨within', hb⟩ := hnext
  refine ⟨Source.length_lt_trans within' within, ?_⟩
  unfold Reading.andThen
  dsimp only
  rw [hb]

theorem Finds.andAlso {next : α → (s : Source) → Reading β (s.length + 1)} (h : r.Finds a s)
    (hnext : (next a s).Finds b rest) : (r.andAlso next).Finds b rest := by
  obtain ⟨within, rfl⟩ := h
  obtain ⟨within', hb⟩ := hnext
  refine ⟨Source.length_lt_of_lt_succ within' within, ?_⟩
  unfold Reading.andAlso
  dsimp only
  rw [hb]

theorem Finds.orMalformed (h : r.Finds a rest) : r.orMalformed.Finds a rest := by
  obtain ⟨within, rfl⟩ := h
  exact ⟨within, rfl⟩

end Reading

open Reading

/-- A text as a part of a document. -/
def units (t : List Char) : Source := t.map some

variable {s t sp : List Char} {c : Char} {tail : Source}

theorem units_nil : units [] = [] := rfl

theorem units_cons (c : Char) (t : List Char) : units (c :: t) = some c :: units t := rfl

theorem units_append (s t : List Char) : units (s ++ t) = units s ++ units t := List.map_append

theorem ofText_eq_units (text : String) : Source.ofText text = units text.toList := rfl

/-- Blanks of JSON: spaces, tabs and line ends. -/
def Space (sp : List Char) : Prop := ∀ c ∈ sp, c ∈ [' ', '\t', '\n', '\r']

instance (sp : List Char) : Decidable (Space sp) := inferInstanceAs (Decidable (∀ c ∈ sp, _))

theorem space_nil : Space [] := List.forall_mem_nil _

theorem isSpace_iff : Source.isSpace (some c) = true ↔ c ∈ [' ', '\t', '\n', '\r'] := by
  unfold Source.isSpace
  simp only [Bool.or_eq_true, beq_iff_eq, Option.some.injEq, List.mem_cons, List.not_mem_nil, or_false]
  tauto

/-- A character that no blank is. -/
def Solid (c : Char) : Prop := c ∉ [' ', '\t', '\n', '\r']

instance (c : Char) : Decidable (Solid c) := inferInstanceAs (Decidable (¬ _))

theorem skipSpace_units (hsp : Space sp) (hc : Solid c) :
    Source.skipSpace (units sp ++ some c :: tail) = some c :: tail := by
  have hstop : Source.isSpace (some c) = false := by
    rw [Bool.eq_false_iff, ne_eq, isSpace_iff]
    exact hc
  induction sp with
  | nil =>
    unfold Source.skipSpace
    rw [units_nil, List.nil_append, List.dropWhile_cons, hstop]
    rfl
  | cons b sp ih =>
    have hb : Source.isSpace (some b) = true := isSpace_iff.2 (hsp b List.mem_cons_self)
    have hrest := ih fun d hd => hsp d (List.mem_cons_of_mem _ hd)
    unfold Source.skipSpace at hrest ⊢
    rw [units_cons, List.cons_append, List.dropWhile_cons, hb, if_pos rfl, hrest]

theorem skipSpace_all (hsp : Space sp) : Source.skipSpace (units sp) = [] := by
  unfold Source.skipSpace units
  rw [List.dropWhile_eq_nil_iff]
  intro u hu
  obtain ⟨c, hc, rfl⟩ := List.mem_map.1 hu
  exact isSpace_iff.2 (hsp c hc)

/-- **Blanks before a character do not count.** -/
theorem significant_finds (hsp : Space sp) (hc : Solid c) :
    (significant (units sp ++ some c :: tail)).Finds c tail := by
  have hskip : Source.skipSpace (units sp ++ some c :: tail) = some c :: tail := skipSpace_units hsp hc
  unfold significant
  split
  · next h =>
    rw [hskip] at h
    cases h
  · next h =>
    rw [hskip] at h
    cases h
  · next d rest h =>
    rw [hskip] at h
    cases h
    exact ⟨_, rfl⟩

theorem peek_eq (hsp : Space sp) (hc : Solid c) : peek (units sp ++ some c :: tail) = .ok c := by
  have hfound : (significant (units sp ++ some c :: tail)).Finds c tail := significant_finds hsp hc
  obtain ⟨within, h⟩ := hfound
  unfold peek
  rw [h]

theorem readMark_finds (hsp : Space sp) (hc : Solid c) :
    (readMark c (units sp ++ some c :: tail)).Finds () tail :=
  (significant_finds hsp hc).check (if_pos rfl)

theorem readWord_finds (word : List Char) (tail : Source) :
    (readWord word (units word ++ tail)).Finds () tail := by
  induction word with
  | nil => exact here_finds () tail
  | cons c word ih =>
    rw [units_cons, List.cons_append]
    unfold readWord
    rw [if_pos rfl]
    exact ih.relax

/-- Where only blanks are left, a document has ended. -/
theorem atEnd_eq {α : Type} {bound : ℕ} {r : Reading α bound} {a : α} (h : r.Finds a (units sp))
    (hsp : Space sp) : atEnd r = .ok a := by
  obtain ⟨within, rfl⟩ := h
  unfold atEnd
  dsimp only
  rw [skipSpace_all hsp]
  rfl

/-- At a character of a text its bytes are decoded to it. -/
theorem utf8DecodeChar?_at (bytes : ByteArray) (c : Char) (t : List Char) :
    (bytes ++ (c :: t).utf8Encode).utf8DecodeChar? bytes.size = some c := by
  have hextract : (bytes ++ (c :: t).utf8Encode).extract bytes.size
      (bytes ++ (c :: t).utf8Encode).size = (c :: t).utf8Encode := by
    rw [ByteArray.size_append]
    exact ByteArray.extract_append_eq_right rfl rfl
  rw [ByteArray.utf8DecodeChar?_eq_utf8DecodeChar?_extract, hextract]
  exact List.utf8DecodeChar?_utf8Encode_cons

/-- **The bytes of a text are decoded to its characters.** -/
theorem decodeFrom_eq (t : List Char) (bytes : ByteArray) (decoded : Source) :
    Source.decodeFrom (bytes ++ t.utf8Encode) decoded bytes.size = decoded.reverse ++ units t := by
  -- by induction on what is left; a character moves from there to the bytes that are done
  induction t generalizing bytes decoded with
  | nil =>
    rw [List.utf8Encode_nil, ByteArray.append_empty, Source.decodeFrom, if_neg (Nat.lt_irrefl _)]
    exact (List.append_nil _).symm
  | cons c t ih =>
    have hsize : bytes.size + c.utf8Size = (bytes ++ [c].utf8Encode).size := by
      rw [ByteArray.size_append, List.utf8Encode_singleton, List.size_toByteArray,
        String.length_utf8EncodeChar]
    have hbytes : bytes ++ (c :: t).utf8Encode = bytes ++ [c].utf8Encode ++ t.utf8Encode := by
      rw [List.utf8Encode_cons, ByteArray.append_assoc]
    have hlt : bytes.size < (bytes ++ (c :: t).utf8Encode).size := by
      have hpos := c.utf8Size_pos
      rw [hbytes, ByteArray.size_append]
      omega
    rw [Source.decodeFrom, if_pos hlt, utf8DecodeChar?_at]
    dsimp only
    rw [hsize, hbytes, ih, List.reverse_cons, List.append_assoc]
    rfl

/-- A document in bytes is read as the text is. -/
theorem ofBytes_toUTF8 (text : String) : Source.ofBytes text.toUTF8 = Source.ofText text := by
  have hbytes : text.toUTF8 = ByteArray.empty ++ text.toList.utf8Encode := by
    rw [ByteArray.empty_append, String.toUTF8_eq_toByteArray, ← String.toByteArray_ofList,
      String.ofList_toList]
  unfold Source.ofBytes
  rw [hbytes]
  exact decodeFrom_eq text.toList ByteArray.empty []

end EventSieve.Json
