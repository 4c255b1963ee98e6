import EventSieve.Json.Reading
import EventSieve.Text.Basic

/-!
# Strings

The readers start after the opening quote, but for `readKey`.

* `readEscape`: the character of an escape; a character past `\uffff` is an escaped pair of
  surrogates, and a surrogate that is not half of a pair is refused.
* `readQuoted`: the text of a string. Its bytes must be UTF-8, which is seen at the closing quote.
* `readKey`: a string with its opening quote, where a value of another kind is malformed.
* `skipQuoted`: the end of a string whose text does not matter. Neither the bytes nor the pairing of
  surrogates are looked at.
-/

namespace EventSieve.Json

open Reading

/-- The character that a backslash and a single letter stand for. -/
def shortEscape? : Char → Option Char
  | '"' => some '"'
  | '\\' => some '\\'
  | '/' => some '/'
  | 'b' => some '\x08'
  | 'f' => some '\x0c'
  | 'n' => some '\n'
  | 'r' => some '\r'
  | 't' => some '\t'
  | _ => none

/-- The value of a unit that is a hexadecimal digit. -/
def hexUnit? (u : Option Char) : Option Nat := u.bind Text.hexDigit?

/-- The number that four units denote, if they are hexadecimal digits. -/
def hexUnits? (a b c d : Option Char) : Option Nat := do
  return ((((← hexUnit? a) * 16 + (← hexUnit? b)) * 16 + (← hexUnit? c)) * 16 + (← hexUnit? d))

/-- The number of the four hexadecimal digits at the front. The document ends too early if it has
fewer than four bytes left. -/
def readHex : (s : Source) → Reading Nat s.length
  | a :: b :: c :: d :: rest =>
    match hexUnits? a b c d with
    | some n => (here n rest).relax.relax.relax
    | none => defect .malformed
  | s => defect (if s.byteLength < 4 then .truncated else .malformed)

/-- Whether a code unit is the first half of a surrogate pair. -/
def isHighSurrogate (n : Nat) : Bool := 0xD800 ≤ n && n ≤ 0xDBFF

/-- Whether a code unit is the second half of a surrogate pair. -/
def isLowSurrogate (n : Nat) : Bool := 0xDC00 ≤ n && n ≤ 0xDFFF

/-- The character of a surrogate pair. -/
def pairChar (high low : Nat) : Char :=
  Char.ofNat (0x10000 + (high - 0xD800) * 0x400 + (low - 0xDC00))

/-- The second half of a surrogate pair, which has to follow as an escape of its own, makes the
character of the pair. -/
def readLowHalf (high : Nat) : (s : Source) → Reading Char s.length
  | some '\\' :: some 'u' :: s =>
    ((readHex s).check fun low =>
      if isLowSurrogate low then .ok (pairChar high low) else .error .malformed).relax.relax
  | [] => defect .truncated
  | [some '\\'] => defect .truncated
  | _ => defect .malformed

/-- The character of an escape by number, read after `\u`. -/
def readNumbered (s : Source) : Reading Char s.length :=
  (readHex s).andAlso fun n s =>
    if isLowSurrogate n then defect .malformed
    else if isHighSurrogate n then (readLowHalf n s).relax
    else here (Char.ofNat n) s

/-- The character of an escape, read after the backslash. -/
def readEscape : (s : Source) → Reading Char s.length
  | [] => defect .truncated
  | none :: _ => defect .malformed
  | some c :: s =>
    if c = 'u' then (readNumbered s).relax
    else
      match shortEscape? c with
      | some d => here d s
      | none => defect .malformed

/-- The end of an escape that does not matter, read after the backslash. -/
def skipEscape : (s : Source) → Reading Unit s.length
  | [] => defect .truncated
  | none :: _ => defect .malformed
  | some c :: s =>
    if c = 'u' then ((readHex s).map fun _ => ()).relax
    else if (shortEscape? c).isSome then here () s
    else defect .malformed

/-- Reads on in a string. `read` holds its characters so far, last first, and `intact` tells whether
all its bytes so far belong to characters. -/
def readQuotedFrom (bound : Nat) (read : List Char) (intact : Bool) :
    (s : Source) → s.length < bound + 1 → Reading String bound
  | [], _ => defect .truncated
  | none :: s, h => readQuotedFrom bound read false s (Source.lt_succ_of_cons h)
  | some c :: s, h =>
    if c = '"' then
      if intact then found (String.ofList read.reverse) s (Source.lt_of_cons h)
      else defect .malformed
    else if c = '\\' then
      match readEscape s with
      | .found d rest within =>
        readQuotedFrom bound (d :: read) intact rest
          (Source.length_lt_trans within (Source.lt_succ_of_cons h))
      | .defect d => defect d
    else if c.toNat < 0x20 then defect .malformed
    else readQuotedFrom bound (c :: read) intact s (Source.lt_succ_of_cons h)
termination_by s => s.length
decreasing_by all_goals simp only [List.length_cons]; omega

/-- The text of a string, read after its opening quote. -/
def readQuoted (s : Source) : Reading String s.length :=
  readQuotedFrom s.length [] true s s.length_lt_succ

/-- A string where nothing else may stand, such as a key. -/
def readKey (s : Source) : Reading String s.length :=
  (readMark '"' s).andThen fun _ s => readQuoted s

/-- Goes on to the end of a string. -/
def skipQuotedFrom (bound : Nat) : (s : Source) → s.length < bound + 1 → Reading Unit bound
  | [], _ => defect .truncated
  | none :: s, h => skipQuotedFrom bound s (Source.lt_succ_of_cons h)
  | some c :: s, h =>
    if c = '"' then found () s (Source.lt_of_cons h)
    else if c = '\\' then
      match skipEscape s with
      | .found _ rest within =>
        skipQuotedFrom bound rest (Source.length_lt_trans within (Source.lt_succ_of_cons h))
      | .defect d => defect d
    else if c.toNat < 0x20 then defect .malformed
    else skipQuotedFrom bound s (Source.lt_succ_of_cons h)
termination_by s => s.length
decreasing_by all_goals simp only [List.length_cons]; omega

/-- The end of a string, read after its opening quote. -/
def skipQuoted (s : Source) : Reading Unit s.length := skipQuotedFrom s.length s s.length_lt_succ

end EventSieve.Json
