import EventSieve.Gate.Definition
import EventSieve.Json.Fields

/-!
# Filter definitions in JSON

A document is an object with a list of definitions under `filters`. A definition is an object with
`name`, `expression` and optionally `mode` and `enabled`; other keys are skipped. Both kinds of
object may be written as arrays of their fields in order, with optional fields left out at the end.
A mode is a word, or an object whose one key is that word with the value `null`.

The document is read once from front to back, and the first defect on the way is the error.

* `Definition.read`, `Definition.readList`: a definition, and a list of them.
* `Definition.ofJson`, `Definition.ofJsonBytes`: the definitions of a document, given as a text or
  as bytes that should be UTF-8.
-/

namespace EventSieve

open Json Json.Reading

namespace Mode

/-- The mode that a word spells. -/
def ofWord (word : String) : Except Defect Mode :=
  match ofName? word with
  | some m => .ok m
  | none => .error (.mismatch (.unknownVariant word "`include` or `exclude`"))

/-- The word of a mode. -/
def readName (s : Source) : Reading Mode s.length := (readKey s).check ofWord

/-- A mode: its word, or an object of its word and `null`. Other values are no mode at all. -/
def read (s : Source) : Reading Mode s.length :=
  match peek s with
  | .error d => defect d
  | .ok c =>
    if c = '"' then readName s
    else
      (readMark '\x7b' s).andThen fun _ s => (readName s).andThen fun mode s =>
        (readMark ':' s).andThen fun _ s => (readNull s).andThen fun _ s =>
          (readMark '\x7d' s).map fun _ => mode

end Mode

namespace Definition

/-- What is known of a definition while its members are read. -/
structure Known where
  name : Option String := none
  expression : Option String := none
  mode : Option Mode := none
  enabled : Option Bool := none

/-- One more member of a definition, read from the colon on. -/
def Known.member (known : Known) (key : String) (s : Source) : Reading Known s.length :=
  if key = "name" then
    (readField key known.name (readString "a string") s).map fun name =>
      { known with name := some name }
  else if key = "expression" then
    (readField key known.expression (readString "a string") s).map fun expression =>
      { known with expression := some expression }
  else if key = "mode" then
    (readField key known.mode Mode.read s).map fun mode => { known with mode := some mode }
  else if key = "enabled" then
    (readField key known.enabled readBoolean s).map fun enabled =>
      { known with enabled := some enabled }
  else (skipField s).map fun _ => known

/-- The definition of which all members are known; the mode and the use have defaults. -/
def Known.definition (known : Known) : Except Defect Definition :=
  match known.name, known.expression with
  | none, _ => .error (.mismatch (.missingField "name"))
  | some _, none => .error (.mismatch (.missingField "expression"))
  | some name, some expression =>
    .ok ⟨name, expression, known.mode.getD .including, known.enabled.getD true⟩

/-- The error of an array that ends before the fields that a definition needs. -/
def tooShort (length : Nat) : Defect :=
  .mismatch (.wrongLength length "struct FilterConfig with 4 elements")

/-- A definition written as an array, from its use on. -/
def readEnabledOn (d : Definition) : (s : Source) → Reading Definition (s.length + 1) :=
  readElement false (here d) fun s =>
    (readBoolean s).andThen fun enabled s => (closeArray s).map fun _ => { d with enabled }

/-- A definition written as an array, from its mode on. -/
def readModeOn (d : Definition) : (s : Source) → Reading Definition (s.length + 1) :=
  readElement false (here d) fun s =>
    (Mode.read s).andAlso fun mode s => readEnabledOn { d with mode } s

/-- A definition written as an array, from its expression on. -/
def readExpressionOn (name : String) : (s : Source) → Reading Definition (s.length + 1) :=
  readElement false (fun _ => defect (tooShort 1)) fun s =>
    (readString "a string" s).andAlso fun expression s => readModeOn { name, expression } s

/-- A definition written as an array, after its opening bracket. -/
def readArray : (s : Source) → Reading Definition (s.length + 1) :=
  readElement true (fun _ => defect (tooShort 0)) fun s =>
    (readString "a string" s).andAlso fun name s => readExpressionOn name s

/-- A definition. -/
def read (s : Source) : Reading Definition s.length :=
  (readHead s).andAlso fun head s =>
    match head with
    | .object => (readMembers Known.member {} s).check Known.definition
    | .array => readArray s
    | head => defect (wrongType head "struct FilterConfig")

/-- A list of definitions. -/
def readList (s : Source) : Reading (List Definition) s.length :=
  (readHead s).andAlso fun head s =>
    match head with
    | .array => readElements read s
    | head => defect (wrongType head "a sequence")

/-- One more member of a document, read from the colon on. -/
def documentMember (known : Option (List Definition)) (key : String) (s : Source) :
    Reading (Option (List Definition)) s.length :=
  if key = "filters" then (readField key known readList s).map some
  else (skipField s).map fun _ => known

/-- The definitions of a document written as an array, after its opening bracket. -/
def readDocumentArray : (s : Source) → Reading (List Definition) (s.length + 1) :=
  readElement true (here []) fun s =>
    (readList s).andThen fun definitions s => (closeArray s).map fun _ => definitions

/-- The definitions of the document at the front. -/
def readDocument (s : Source) : Reading (List Definition) s.length :=
  (readHead s).andAlso fun head s =>
    match head with
    | .object => (readMembers documentMember none s).map fun known => known.getD []
    | .array => readDocumentArray s
    | head => defect (wrongType head "struct FilterSetConfig")

/-- The definitions of a document with nothing but blanks after it. -/
def readAll (s : Source) : Except Defect (List Definition) := atEnd (readDocument s)

/-- The definitions of a JSON text. -/
def ofJson (text : String) : Except Defect (List Definition) := readAll (.ofText text)

/-- The definitions of JSON in bytes that should be UTF-8. -/
def ofJsonBytes (bytes : ByteArray) : Except Defect (List Definition) := readAll (.ofBytes bytes)

end Definition

end EventSieve
