import EventSieve.Json.Quoted
import EventSieve.Proofs.Json.Reading
import EventSieve.Proofs.Text.Digits

/-!
# Strings and their spellings

* `CharSpelled`, `TextSpelled`: how a character may be written in a string: as it is, by a letter after a
  backslash, or by one or two code units of UTF-16 in hexadecimal.
* `readQuoted_finds`: **a string is read whatever way its characters are written.**
* `Skippable`: what a string may hold whose text does not matter, where code units need not pair.
* `skipQuoted_finds`: such a string is skipped.
-/

namespace EventSieve.Json

open Reading Text

variable {h h' s t body : List Char} {c d : Char} {n : ℕ} {cs : List Char} {tail : Source}

/-- Four hexadecimal digits and the number that they denote. -/
inductive FourHex : List Char → ℕ → Prop
  | mk {a b c d : Char} {w x y z : ℕ} : HexDigit a w → HexDigit b x → HexDigit c y → HexDigit d z →
      FourHex [a, b, c, d] (((w * 16 + x) * 16 + y) * 16 + z)

/-- The letters that may stand after a backslash, each with its character. -/
def shortEscapes : List (Char × Char) :=
  [('"', '"'), ('\\', '\\'), ('/', '/'), ('b', '\x08'), ('f', '\x0c'), ('n', '\n'), ('r', '\r'),
    ('t', '\t')]

/-- Whether a character may stand in a string as it is. -/
def IsLiteral (c : Char) : Prop := 0x20 ≤ c.toNat ∧ c ≠ '"' ∧ c ≠ '\\'

instance (c : Char) : Decidable (IsLiteral c) := inferInstanceAs (Decidable (_ ∧ _))

/-- The spellings of a character in a string. A character past `\uffff` takes two code units. -/
inductive CharSpelled : List Char → Char → Prop
  | literal {c : Char} : IsLiteral c → CharSpelled [c] c
  | short {c d : Char} : (c, d) ∈ shortEscapes → CharSpelled ['\\', c] d
  | unit {h : List Char} {c : Char} : FourHex h c.toNat → CharSpelled ('\\' :: 'u' :: h) c
  | pair {h h' : List Char} {c : Char} : 0x10000 ≤ c.toNat →
      FourHex h (0xD800 + (c.toNat - 0x10000) / 0x400) →
      FourHex h' (0xDC00 + (c.toNat - 0x10000) % 0x400) →
      CharSpelled ('\\' :: 'u' :: (h ++ '\\' :: 'u' :: h')) c

/-- The spellings of a text in a string. -/
inductive TextSpelled : List Char → List Char → Prop
  | nil : TextSpelled [] []
  | cons {s t cs : List Char} {c : Char} : CharSpelled s c → TextSpelled t cs →
      TextSpelled (s ++ t) (c :: cs)

/-- The spellings of a string. -/
inductive StringSpelled : List Char → String → Prop
  | mk {body : List Char} {text : String} : TextSpelled body text.toList →
      StringSpelled ('"' :: (body ++ ['"'])) text

/-- What a string may hold as far as its syntax goes: escaped code units need not make characters. -/
inductive Skippable : List Char → Prop
  | nil : Skippable []
  | literal {c : Char} {t : List Char} : IsLiteral c → Skippable t → Skippable (c :: t)
  | short {c d : Char} {t : List Char} : (c, d) ∈ shortEscapes → Skippable t → Skippable ('\\' :: c :: t)
  | unit {h t : List Char} {n : ℕ} : FourHex h n → Skippable t → Skippable ('\\' :: 'u' :: (h ++ t))

/-- A text whose characters all stand for themselves. -/
theorem textSpelled_literal (ht : ∀ c ∈ t, IsLiteral c) : TextSpelled t t := by
  induction t with
  | nil => exact .nil
  | cons c t ih =>
    have hrest := ih fun d hd => ht d (List.mem_cons_of_mem _ hd)
    exact .cons (.literal (ht c List.mem_cons_self)) hrest

/-- A string whose text is given by its characters. -/
theorem stringSpelled_ofList (cs : List Char) (hbody : TextSpelled body cs) :
    StringSpelled ('"' :: (body ++ ['"'])) (String.ofList cs) := by
  refine .mk ?_
  rw [String.toList_ofList]
  exact hbody

/-- A string whose characters all stand for themselves. -/
theorem stringSpelled_literal (cs : List Char) (hcs : ∀ c ∈ cs, IsLiteral c) :
    StringSpelled ('"' :: (cs ++ ['"'])) (String.ofList cs) :=
  stringSpelled_ofList cs (textSpelled_literal hcs)

theorem hexUnit?_eq (hc : HexDigit c n) : hexUnit? (some c) = some n := hexDigit?_iff.2 hc

theorem readHex_finds (hh : FourHex h n) (tail : Source) : (readHex (units h ++ tail)).Finds n tail := by
  cases hh with
  | @mk a b c d w x y z ha hb hc hd =>
    have hunits : hexUnits? (some a) (some b) (some c) (some d) =
        some (((w * 16 + x) * 16 + y) * 16 + z) := by
      unfold hexUnits?
      rw [hexUnit?_eq ha, hexUnit?_eq hb, hexUnit?_eq hc, hexUnit?_eq hd]
      rfl
    change (readHex (some a :: some b :: some c :: some d :: tail)).Finds _ tail
    unfold readHex
    dsimp only
    rw [hunits]
    exact (here_finds _ tail).relax.relax.relax

/-- Characters are no halves of surrogate pairs. -/
theorem surrogates_of_char (c : Char) :
    isLowSurrogate c.toNat = false ∧ isHighSurrogate c.toNat = false := by
  have hvalid : c.toNat.isValidChar := c.valid
  unfold isLowSurrogate isHighSurrogate
  simp only [Bool.and_eq_false_iff, decide_eq_false_iff_not]
  unfold Nat.isValidChar at hvalid
  omega

/-- The two code units of a character past `\uffff` make it. -/
theorem pairChar_eq (hc : 0x10000 ≤ c.toNat) :
    pairChar (0xD800 + (c.toNat - 0x10000) / 0x400) (0xDC00 + (c.toNat - 0x10000) % 0x400) = c := by
  have hsum : 0x10000 + (0xD800 + (c.toNat - 0x10000) / 0x400 - 0xD800) * 0x400 +
      (0xDC00 + (c.toNat - 0x10000) % 0x400 - 0xDC00) = c.toNat := by omega
  unfold pairChar
  rw [hsum, Char.ofNat_toNat]

/-- A code unit that is a character by itself. -/
theorem readNumbered_unit (hh : FourHex h c.toNat) (tail : Source) :
    (readNumbered (units h ++ tail)).Finds c tail := by
  obtain ⟨hlow, hhigh⟩ := surrogates_of_char c
  refine (readHex_finds hh tail).andAlso ?_
  rw [hlow, hhigh, if_neg Bool.false_ne_true, if_neg Bool.false_ne_true, Char.ofNat_toNat]
  exact here_finds c tail

/-- Two code units that are a character together. -/
theorem readNumbered_pair (hc : 0x10000 ≤ c.toNat) (hh : FourHex h (0xD800 + (c.toNat - 0x10000) / 0x400))
    (hh' : FourHex h' (0xDC00 + (c.toNat - 0x10000) % 0x400)) (tail : Source) :
    (readNumbered (units (h ++ '\\' :: 'u' :: h') ++ tail)).Finds c tail := by
  have hvalid : c.toNat.isValidChar := c.valid
  have hlow : isLowSurrogate (0xD800 + (c.toNat - 0x10000) / 0x400) = false := by
    unfold isLowSurrogate
    unfold Nat.isValidChar at hvalid
    simp only [Bool.and_eq_false_iff, decide_eq_false_iff_not]
    omega
  have hhigh : isHighSurrogate (0xD800 + (c.toNat - 0x10000) / 0x400) = true := by
    unfold isHighSurrogate
    unfold Nat.isValidChar at hvalid
    simp only [Bool.and_eq_true, decide_eq_true_iff]
    omega
  have hlow' : isLowSurrogate (0xDC00 + (c.toNat - 0x10000) % 0x400) = true := by
    unfold isLowSurrogate
    simp only [Bool.and_eq_true, decide_eq_true_iff]
    omega
  rw [units_append, List.append_assoc]
  refine (readHex_finds hh _).andAlso ?_
  rw [hlow, hhigh, if_neg Bool.false_ne_true, if_pos rfl]
  refine Finds.relax ?_
  change (readLowHalf _ (some '\\' :: some 'u' :: (units h' ++ tail))).Finds c tail
  unfold readLowHalf
  refine ((readHex_finds hh' tail).check ?_).relax.relax
  rw [hlow', if_pos rfl, pairChar_eq hc]

theorem shortEscape?_eq (hc : (c, d) ∈ shortEscapes) : c ≠ 'u' ∧ shortEscape? c = some d := by
  have hall : ∀ p ∈ shortEscapes, p.1 ≠ 'u' ∧ shortEscape? p.1 = some p.2 := by decide
  exact hall _ hc

theorem readEscape_short (hc : (c, d) ∈ shortEscapes) (tail : Source) :
    (readEscape (some c :: tail)).Finds d tail := by
  obtain ⟨hu, hshort⟩ := shortEscape?_eq hc
  unfold readEscape
  dsimp only
  rw [if_neg hu, hshort]
  exact here_finds d tail

theorem readEscape_numbered (hfound : (readNumbered (units t ++ tail)).Finds c tail) :
    (readEscape (units ('u' :: t) ++ tail)).Finds c tail := by
  change (readEscape (some 'u' :: (units t ++ tail))).Finds c tail
  unfold readEscape
  dsimp only
  rw [if_pos rfl]
  exact hfound.relax

section ReadQuoted

variable {bound : ℕ} {read : List Char} {intact : Bool} {rest source : Source} {text : String}

/-- At a quote the string ends. -/
theorem readQuotedFrom_end (read : List Char) (within : (some '"' :: tail).length < bound + 1) :
    (readQuotedFrom bound read true (some '"' :: tail) within).Finds (String.ofList read.reverse) tail := by
  rw [readQuotedFrom, if_pos rfl, if_pos rfl]
  exact ⟨_, rfl⟩

/-- After a character that stands for itself the string goes on. -/
theorem readQuotedFrom_literal (hc : IsLiteral c)
    (hrest : ∀ within, (readQuotedFrom bound (c :: read) intact source within).Finds text tail)
    (within : (some c :: source).length < bound + 1) :
    (readQuotedFrom bound read intact (some c :: source) within).Finds text tail := by
  obtain ⟨hprintable, hquote, hbackslash⟩ := hc
  rw [readQuotedFrom, if_neg hquote, if_neg hbackslash, if_neg (by omega)]
  exact hrest _

/-- After an escape the string goes on. -/
theorem readQuotedFrom_escape (hfound : (readEscape source).Finds c rest)
    (hrest : ∀ within, (readQuotedFrom bound (c :: read) intact rest within).Finds text tail)
    (within : (some '\\' :: source).length < bound + 1) :
    (readQuotedFrom bound read intact (some '\\' :: source) within).Finds text tail := by
  obtain ⟨hlength, heq⟩ := hfound
  rw [readQuotedFrom, if_neg (by decide), if_pos rfl, heq]
  exact hrest _

/-- **The rest of a string is read whatever way it is written.** -/
theorem readQuotedFrom_finds (hbody : TextSpelled body cs) (tail : Source) (read : List Char)
    (within : (units body ++ some '"' :: tail).length < bound + 1) :
    (readQuotedFrom bound read true (units body ++ some '"' :: tail) within).Finds
      (String.ofList (read.reverse ++ cs)) tail := by
  -- by induction on the spelling, after whatever has been read
  induction hbody generalizing read with
  | nil =>
    have hend := readQuotedFrom_end read within
    rwa [← List.append_nil read.reverse] at hend
  | @cons s t cs c hc ht ih =>
    have hnext : (c :: read).reverse ++ cs = read.reverse ++ c :: cs := by
      rw [List.reverse_cons, List.append_assoc, List.singleton_append]
    have hrest := fun within => ih (c :: read) within
    rw [hnext] at hrest
    -- the bound is about the text that is rewritten
    revert within
    rw [units_append, List.append_assoc]
    intro within
    cases hc with
    | literal hc => exact readQuotedFrom_literal hc hrest within
    | short hc => exact readQuotedFrom_escape (readEscape_short hc _) hrest within
    | unit hh =>
      exact readQuotedFrom_escape (readEscape_numbered (readNumbered_unit hh _)) hrest within
    | pair hc hh hh' =>
      exact readQuotedFrom_escape (readEscape_numbered (readNumbered_pair hc hh hh' _)) hrest within

end ReadQuoted

/-- **A string is read whatever way its characters are written.** -/
theorem readQuoted_finds {text : String} (hbody : TextSpelled body text.toList) (tail : Source) :
    (readQuoted (units body ++ some '"' :: tail)).Finds text tail := by
  have hfound := readQuotedFrom_finds hbody tail [] (Source.length_lt_succ _)
  rw [List.reverse_nil, List.nil_append, String.ofList_toList] at hfound
  exact hfound

theorem skipEscape_short (hc : (c, d) ∈ shortEscapes) (tail : Source) :
    (skipEscape (some c :: tail)).Finds () tail := by
  obtain ⟨hu, hshort⟩ := shortEscape?_eq hc
  unfold skipEscape
  dsimp only
  rw [if_neg hu, hshort, Option.isSome_some, if_pos rfl]
  exact here_finds () tail

theorem skipEscape_unit (hh : FourHex h n) (tail : Source) :
    (skipEscape (units ('u' :: h) ++ tail)).Finds () tail := by
  change (skipEscape (some 'u' :: (units h ++ tail))).Finds () tail
  unfold skipEscape
  dsimp only
  rw [if_pos rfl]
  exact ((readHex_finds hh tail).map _).relax

section SkipQuoted

variable {bound : ℕ} {rest source : Source}

theorem skipQuotedFrom_end (within : (some '"' :: tail).length < bound + 1) :
    (skipQuotedFrom bound (some '"' :: tail) within).Finds () tail := by
  rw [skipQuotedFrom, if_pos rfl]
  exact ⟨_, rfl⟩

theorem skipQuotedFrom_literal (hc : IsLiteral c)
    (hrest : ∀ within, (skipQuotedFrom bound source within).Finds () tail)
    (within : (some c :: source).length < bound + 1) :
    (skipQuotedFrom bound (some c :: source) within).Finds () tail := by
  obtain ⟨hprintable, hquote, hbackslash⟩ := hc
  rw [skipQuotedFrom, if_neg hquote, if_neg hbackslash, if_neg (by omega)]
  exact hrest _

theorem skipQuotedFrom_escape (hfound : (skipEscape source).Finds () rest)
    (hrest : ∀ within, (skipQuotedFrom bound rest within).Finds () tail)
    (within : (some '\\' :: source).length < bound + 1) :
    (skipQuotedFrom bound (some '\\' :: source) within).Finds () tail := by
  obtain ⟨hlength, heq⟩ := hfound
  rw [skipQuotedFrom, if_neg (by decide), if_pos rfl, heq]
  exact hrest _

theorem skipQuotedFrom_finds (hbody : Skippable body) (tail : Source)
    (within : (units body ++ some '"' :: tail).length < bound + 1) :
    (skipQuotedFrom bound (units body ++ some '"' :: tail) within).Finds () tail := by
  induction hbody with
  | nil => exact skipQuotedFrom_end within
  | literal hc ht ih => exact skipQuotedFrom_literal hc ih within
  | short hc ht ih => exact skipQuotedFrom_escape (skipEscape_short hc _) ih within
  | @unit h t n hh ht ih =>
    have hfound := skipEscape_unit hh (units t ++ some '"' :: tail)
    have heq : units ('\\' :: 'u' :: (h ++ t)) ++ some '"' :: tail =
        some '\\' :: (units ('u' :: h) ++ (units t ++ some '"' :: tail)) := by
      rw [units_cons, units_cons, units_append, units_cons]
      simp only [List.cons_append, List.append_assoc]
    revert within
    rw [heq]
    intro within
    exact skipQuotedFrom_escape hfound ih within

end SkipQuoted

/-- **A string is skipped whatever it holds**, as far as its syntax goes. -/
theorem skipQuoted_finds (hbody : Skippable body) (tail : Source) :
    (skipQuoted (units body ++ some '"' :: tail)).Finds () tail :=
  skipQuotedFrom_finds hbody tail (Source.length_lt_succ _)

end EventSieve.Json
