import EventSieve.Json.Defect
import EventSieve.Json.Source

/-!
# Readings

A reader looks at the front of a document and answers with a value and the rest of the document, or
with the first defect. The type of the answer bounds the length of the rest, so that loops over
readers end: `Reading α s.length` is the answer of a reader that takes up something of `s`, and
`Reading α (s.length + 1)` that of one that may leave `s` as it is.

* `Reading.map`, `Reading.check`: the value changed, or looked at.
* `Reading.andThen`, `Reading.andAlso`: one reader after the other.
* `significant`, `peek`, `readMark`: the first character after blanks.
* `readWord`: the rest of a word that is expected.
-/

namespace EventSieve.Json

/-- The answer of a reader: a value and the rest, shorter than `bound`, or a defect. -/
inductive Reading (α : Type) (bound : Nat)
  | found (value : α) (rest : Source) (within : rest.length < bound)
  | defect (d : Defect)

namespace Reading

variable {α β : Type} {bound : Nat}

/-- An answer that leaves a document as it is. -/
def here (a : α) (s : Source) : Reading α (s.length + 1) := .found a s s.length_lt_succ

/-- The same answer, of which less is asked. -/
def relax : Reading α bound → Reading α (bound + 1)
  | .found a rest within => .found a rest (Nat.lt_succ_of_lt within)
  | .defect d => .defect d

/-- Another value in the place of the one found. -/
def map (f : α → β) : Reading α bound → Reading β bound
  | .found a rest within => .found (f a) rest within
  | .defect d => .defect d

/-- The value that the one found stands for, which may be a defect. -/
def check (f : α → Except Defect β) : Reading α bound → Reading β bound
  | .found a rest within =>
    match f a with
    | .ok b => .found b rest within
    | .error d => .defect d
  | .defect d => .defect d

/-- Reads on with a reader that takes up something. -/
def andThen (first : Reading α bound) (next : α → (s : Source) → Reading β s.length) :
    Reading β bound :=
  match first with
  | .found a s within =>
    match next a s with
    | .found b rest h => .found b rest (Source.length_lt_trans h within)
    | .defect d => .defect d
  | .defect d => .defect d

/-- Reads on with a reader that may take up nothing. -/
def andAlso (first : Reading α bound) (next : α → (s : Source) → Reading β (s.length + 1)) :
    Reading β bound :=
  match first with
  | .found a s within =>
    match next a s with
    | .found b rest h => .found b rest (Source.length_lt_of_lt_succ h within)
    | .defect d => .defect d
  | .defect d => .defect d

/-- The answer with every defect taken for a malformed document. -/
def orMalformed : Reading α bound → Reading α bound
  | .found a rest within => .found a rest within
  | .defect _ => .defect .malformed

end Reading

open Reading

/-- The first character after the blanks at the front. Outside strings a byte that belongs to no
character is never right. -/
def significant (s : Source) : Reading Char s.length :=
  match h : s.skipSpace with
  | [] => defect .truncated
  | none :: _ => defect .malformed
  | some c :: rest => found c rest (Source.length_lt_of_skipSpace h)

/-- The first character after the blanks at the front, which stays where it is. -/
def peek (s : Source) : Except Defect Char :=
  match significant s with
  | .found c _ _ => .ok c
  | .defect d => .error d

/-- The first character after the blanks at the front, which has to be `c`. -/
def readMark (c : Char) (s : Source) : Reading Unit s.length :=
  (significant s).check fun d => if d = c then .ok () else .error .malformed

/-- The characters of a word, which have to stand at the front. -/
def readWord : List Char → (s : Source) → Reading Unit (s.length + 1)
  | [], s => here () s
  | _ :: _, [] => defect .truncated
  | c :: word, u :: s => if u = some c then (readWord word s).relax else defect .malformed

/-- What is found where nothing but blanks is left. -/
def atEnd {α : Type} {bound : Nat} : Reading α bound → Except Defect α
  | .found a rest _ => if rest.skipSpace.isEmpty then .ok a else .error .malformed
  | .defect d => .error d

end EventSieve.Json
