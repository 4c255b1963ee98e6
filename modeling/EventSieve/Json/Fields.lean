import EventSieve.Json.Items

/-!
# Values of an expected type

* `readHead`: a scalar in full, or the bracket that opens an array or an object.
* `readString`, `readBoolean`, `readNull`: a scalar of one type; a value of another type is a
  mismatch that names both.
* `readField`: a field of an object, which may occur once.
* `skipField`: a field that does not matter.
-/

namespace EventSieve.Json

open Reading

/-- The start of the value at the front. -/
def readHead (s : Source) : Reading Head s.length :=
  (significant s).andAlso fun first s =>
    match first with
    | 'n' => (readWord ['u', 'l', 'l'] s).map fun _ => .null
    | 't' => (readWord ['r', 'u', 'e'] s).map fun _ => .boolean true
    | 'f' => (readWord ['a', 'l', 's', 'e'] s).map fun _ => .boolean false
    | '"' => ((readQuoted s).map .text).relax
    | '[' => here .array s
    | '\x7b' => here .object s
    | '-' => (readNumber true s).relax
    | c => if c.isDigit then readNumber false (some c :: s) else defect .malformed

/-- A value of another type than expected. -/
def wrongType (found : Head) (expected : String) : Defect := .mismatch (.wrongType found expected)

/-- A string; `expected` names what is expected where the value is of another type. -/
def readString (expected : String) (s : Source) : Reading String s.length :=
  (readHead s).check fun
    | .text t => .ok t
    | head => .error (wrongType head expected)

/-- `true` or `false`. -/
def readBoolean (s : Source) : Reading Bool s.length :=
  (readHead s).check fun
    | .boolean b => .ok b
    | head => .error (wrongType head "a boolean")

/-- `null`, where it stands for having nothing to say. -/
def readNull (s : Source) : Reading Unit s.length :=
  (readHead s).check fun
    | .null => .ok ()
    | head => .error (wrongType head "unit")

/-- The value of a field, read from the colon on. A field that is known already is refused before
anything else is looked at. -/
def readField {α : Type} (key : String) (known : Option α)
    (read : (s : Source) → Reading α s.length) (s : Source) : Reading α s.length :=
  if known.isSome then defect (.mismatch (.duplicateField key))
  else (readMark ':' s).andThen fun _ s => read s

/-- The end of a field that does not matter, read from the colon on. -/
def skipField (s : Source) : Reading Unit s.length :=
  (readMark ':' s).andThen fun _ s => skipValue s

end EventSieve.Json
