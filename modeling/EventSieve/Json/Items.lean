import EventSieve.Json.Skip

/-!
# The items of arrays and objects

* `nextElement`, `nextKey`: what comes next in an array or object, its end or another item.
* `readElements`: the elements of an array, each read by the same reader.
* `readMembers`: the members of an object, each taken up by its key into what is known so far.
* `readElement`, `closeArray`: one more element of an array that stands for a record, and its end.
-/

namespace EventSieve.Json

open Reading

/-- Whether another element comes next in an array, after a comma unless it is the first; else the
end of the array. -/
def nextElement (isFirst : Bool) (s : Source) : Reading Bool (s.length + 1) :=
  match peek s with
  | .error d => defect d
  | .ok c =>
    if c = ']' then ((readMark ']' s).map fun _ => false).relax
    else if isFirst then here true s
    else
      ((readMark ',' s).andAlso fun _ s =>
        match peek s with
        | .error d => defect d
        | .ok c => if c = ']' then defect .malformed else here true s).relax

/-- The key that comes next in an object, after a comma unless it is the first; else the end of the
object. -/
def nextKey (isFirst : Bool) (s : Source) : Reading (Option String) (s.length + 1) :=
  match peek s with
  | .error d => defect d
  | .ok c =>
    if c = '\x7d' then ((readMark '\x7d' s).map fun _ => none).relax
    else if isFirst then ((readKey s).map some).relax
    else ((readMark ',' s).andThen fun _ s => (readKey s).map some).relax

/-- Reads on in an array after some elements, last first. -/
def readElementsFrom {α : Type} (read : (s : Source) → Reading α s.length) (bound : Nat)
    (elements : List α) (isFirst : Bool) (s : Source) (h : s.length < bound) :
    Reading (List α) bound :=
  match nextElement isFirst s with
  | .defect d => defect d
  | .found false rest within => found elements.reverse rest (Source.length_lt_of_lt_succ within h)
  | .found true start within =>
    match read start with
    | .defect d => defect d
    | .found a rest shorter =>
      readElementsFrom read bound (a :: elements) false rest
        (Source.length_lt_trans shorter (Source.length_lt_of_lt_succ within h))
termination_by s.length
decreasing_by omega

/-- The elements of an array, read after its opening bracket. -/
def readElements {α : Type} (read : (s : Source) → Reading α s.length) (s : Source) :
    Reading (List α) (s.length + 1) :=
  readElementsFrom read (s.length + 1) [] true s s.length_lt_succ

/-- Reads on in an object of which `known` is known already. -/
def readMembersFrom {α : Type} (member : α → String → (s : Source) → Reading α s.length)
    (bound : Nat) (known : α) (isFirst : Bool) (s : Source) (h : s.length < bound) :
    Reading α bound :=
  match nextKey isFirst s with
  | .defect d => defect d
  | .found none rest within => found known rest (Source.length_lt_of_lt_succ within h)
  | .found (some key) start within =>
    match member known key start with
    | .defect d => defect d
    | .found known rest shorter =>
      readMembersFrom member bound known false rest
        (Source.length_lt_trans shorter (Source.length_lt_of_lt_succ within h))
termination_by s.length
decreasing_by omega

/-- What the members of an object tell, each taken up with its key and read from the colon on,
after the opening bracket. -/
def readMembers {α : Type} (member : α → String → (s : Source) → Reading α s.length) (known : α)
    (s : Source) : Reading α (s.length + 1) :=
  readMembersFrom member (s.length + 1) known true s s.length_lt_succ

/-- One more element of an array, or the answer `absent` where the array ends. -/
def readElement {α : Type} (isFirst : Bool) (absent : (s : Source) → Reading α (s.length + 1))
    (present : (s : Source) → Reading α s.length) (s : Source) : Reading α (s.length + 1) :=
  (nextElement isFirst s).andAlso fun more s => if more then (present s).relax else absent s

/-- The end of an array all of whose elements are read. -/
def closeArray (s : Source) : Reading Unit s.length := readMark ']' s

end EventSieve.Json
