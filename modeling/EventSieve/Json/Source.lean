/-!
# JSON documents as they are read

A document is read from the front as a list of units: characters, and bytes that belong to no
well-formed character (which only a string that is skipped may hold).

* `Source.ofText`, `Source.ofBytes`: the units of a text and of bytes that should be UTF-8.
* `Source.byteLength`: the number of bytes that units stand for.
* `Source.skipSpace`: the units after the blanks of JSON.
-/

namespace EventSieve.Json

/-- The units of a document: a character, or none for a byte that belongs to no character. -/
abbrev Source := List (Option Char)

namespace Source

/-- The units of a text. -/
def ofText (text : String) : Source := text.toList.map some

/-- The units of the bytes from position `i` on, after units that are decoded already, last first. A
byte where no well-formed character starts is a unit of its own. -/
def decodeFrom (bytes : ByteArray) (decoded : Source) (i : Nat) : Source :=
  if i < bytes.size then
    match bytes.utf8DecodeChar? i with
    | some c => decodeFrom bytes (some c :: decoded) (i + c.utf8Size)
    | none => decodeFrom bytes (none :: decoded) (i + 1)
  else decoded.reverse
termination_by bytes.size - i
decreasing_by
  · have := c.utf8Size_pos
    omega
  · omega

/-- The units of bytes that should be UTF-8. -/
def ofBytes (bytes : ByteArray) : Source := decodeFrom bytes [] 0

/-- The number of bytes that one unit stands for. -/
def unitBytes : Option Char → Nat
  | some c => c.utf8Size
  | none => 1

/-- The number of bytes that units stand for. -/
def byteLength : Source → Nat
  | [] => 0
  | u :: s => unitBytes u + byteLength s

/-- Whether a unit is a blank of JSON: a space, a tab or a line end. -/
def isSpace (u : Option Char) : Bool :=
  u == some ' ' || u == some '\n' || u == some '\t' || u == some '\r'

/-- What follows the blanks at the start. -/
def skipSpace (s : Source) : Source := s.dropWhile isSpace

theorem length_skipSpace_le (s : Source) : (skipSpace s).length ≤ s.length :=
  (List.dropWhile_sublist _).length_le

theorem length_lt_succ (s : Source) : s.length < s.length + 1 := Nat.lt_succ_self _

/-- What follows the blanks and one more unit is shorter. -/
theorem length_lt_of_skipSpace {s rest : Source} {u : Option Char}
    (h : s.skipSpace = u :: rest) : rest.length < s.length := by
  have := length_skipSpace_le s
  simp only [h, List.length_cons] at this
  omega

/-- A part that is within a part is within the whole. -/
theorem length_lt_of_lt_succ {s t : Source} {bound : Nat} (h : t.length < s.length + 1)
    (within : s.length < bound) : t.length < bound := by omega

theorem lt_of_cons {u : Option Char} {s : Source} {bound : Nat}
    (h : (u :: s).length < bound + 1) : s.length < bound := by
  simp only [List.length_cons] at h
  omega

theorem lt_succ_of_cons {u : Option Char} {s : Source} {bound : Nat}
    (h : (u :: s).length < bound + 1) : s.length < bound + 1 := Nat.lt_succ_of_lt (lt_of_cons h)

theorem length_lt_trans {s t : Source} {bound : Nat} (h : t.length < s.length)
    (within : s.length < bound) : t.length < bound := by omega

end Source

end EventSieve.Json
