import EventSieve.Json.Numeral
import EventSieve.Json.Quoted

/-!
# Values that do not matter

`skipValue` finds the end of a value, however deep it is nested: a list of the arrays and objects
that are open around the front stands for the nesting. All values have to be well formed, but the
size of numbers, the encoding of strings and the pairing of surrogates are not looked at.

* `skipBefore`: where a value is to come, over a scalar or an opening bracket.
* `skipAfter`: where a value has ended, over a comma or a closing bracket.
* `skipSteps`: one after the other, until nothing is open.
-/

namespace EventSieve.Json

open Reading

/-- What is open around the front of a document. -/
inductive Container
  | array
  | object
deriving DecidableEq

/-- The bracket that ends a container. -/
def Container.closer : Container → Char
  | array => ']'
  | object => '\x7d'

/-- Where skipping stands: before or after a value, and in which containers, innermost first. -/
inductive Place
  | before (around : List Container)
  | after (around : List Container)

/-- The end of a key and of the colon after it. -/
def skipKey (s : Source) : Reading Unit s.length :=
  (readMark '"' s).andThen fun _ s => (skipQuoted s).andThen fun _ s => readMark ':' s

/-- From the start of an item of a container to the start of its value. -/
def enterItem (around : List Container) : Container → (s : Source) → Reading Place (s.length + 1)
  | .array, s => here (.before (.array :: around)) s
  | .object, s => ((skipKey s).map fun _ => .before (.object :: around)).relax

/-- After an opening bracket: over the closing one if it comes next, else to the first value. -/
def enterContainer (around : List Container) (container : Container) (s : Source) :
    Reading Place (s.length + 1) :=
  match peek s with
  | .ok c =>
    if c = container.closer then ((readMark c s).map fun _ => .after around).relax
    else enterItem around container s
  | .error d => defect d

/-- The end of a scalar after its first character. -/
def skipScalar (first : Char) (s : Source) : Reading Unit (s.length + 1) :=
  match first with
  | 'n' => readWord ['u', 'l', 'l'] s
  | 't' => readWord ['r', 'u', 'e'] s
  | 'f' => readWord ['a', 'l', 's', 'e'] s
  | '"' => (skipQuoted s).relax
  | '-' => (skipNumber s).relax
  | c => if c.isDigit then skipNumber (some c :: s) else defect .malformed

/-- Where a value is to come: over a scalar, or into a container. -/
def skipBefore (around : List Container) (s : Source) : Reading Place s.length :=
  (significant s).andAlso fun first s =>
    match first with
    | '[' => enterContainer around .array s
    | '\x7b' => enterContainer around .object s
    | c => (skipScalar c s).map fun _ => .after around

/-- Where a value in a container has ended: over a comma to the next value, or out of the
container. -/
def skipAfter (container : Container) (around : List Container) (s : Source) :
    Reading Place s.length :=
  (significant s).andAlso fun first s =>
    if first = ',' then enterItem around container s
    else if first = container.closer then here (.after around) s
    else defect .malformed

/-- Goes on until the value is over in which everything else is contained. -/
def skipSteps (bound : Nat) : Place → (s : Source) → s.length < bound → Reading Unit bound
  | .after [], s, h => found () s h
  | .after (container :: around), s, h =>
    match skipAfter container around s with
    | .found place rest within => skipSteps bound place rest (Source.length_lt_trans within h)
    | .defect d => defect d
  | .before around, s, h =>
    match skipBefore around s with
    | .found place rest within => skipSteps bound place rest (Source.length_lt_trans within h)
    | .defect d => defect d
termination_by _ s => s.length

/-- The end of the value at the front. -/
def skipValue (s : Source) : Reading Unit s.length :=
  match skipBefore [] s with
  | .found place rest within => skipSteps s.length place rest within
  | .defect d => defect d

end EventSieve.Json
