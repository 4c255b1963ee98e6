import EventSieve.Decimal.Layout
import EventSieve.Event.Basic

/-!
# Events from typed values

* `TypedValue`: a typed value of a property, with its text and its equality.
* `TypedRow`: an event that declares the names of its properties in order and gives their values by
  position. A name stands for the first position that declares it, also when that has no value.
* `Field`: a name with its value, which may be missing. A list of fields makes an event of each kind: in maps
  the last value of a name counts, and names without a value are left out.
-/

namespace EventSieve

/-- The value of a property, of one of five kinds. -/
inductive TypedValue
  | text (s : String)
  | int (v : Int64)
  | uint (v : UInt64)
  | float (x : Binary64)
  | bool (b : Bool)

namespace TypedValue

/-- The text of a value. -/
def spelling : TypedValue → String
  | text s => s
  | int v => String.ofList (Text.integerText v.toInt)
  | uint v => String.ofList (Text.integerText v.toNat)
  | float x => String.ofList x.plainText
  | bool true => "true"
  | bool false => "false"

/-- Equality of values of one kind; doubles are compared numerically. -/
def equals : TypedValue → TypedValue → Bool
  | text s, text t => s == t
  | int v, int w => v == w
  | uint v, uint w => v == w
  | float x, float y => x == y
  | bool b, bool c => b == c
  | _, _ => false

instance : BEq TypedValue := ⟨equals⟩

end TypedValue

/-- An event as a row: the names of its properties in order, and the value at each position. -/
structure TypedRow where
  name : String
  names : List String
  value? : Nat → Option TypedValue

namespace TypedRow

/-- The row of a list of names with their values, where a value may be missing. -/
def ofFields (name : String) (fields : List (String × Option TypedValue)) : TypedRow :=
  ⟨name, fields.map Prod.fst, fun i => fields[i]?.bind Prod.snd⟩

/-- The text of the value at the first position that declares a name. -/
def get? (row : TypedRow) (key : String) : Option String :=
  (row.names.findIdx? (· == key)).bind fun i => (row.value? i).map TypedValue.spelling

instance : EventLike TypedRow where
  name row := row.name
  property? := get?

end TypedRow

/-- A name with its value, which may be missing. -/
abbrev Field := String × Option TypedValue

/-- A record with a field, if it has a value. -/
def Record.addField (r : Record) : Field → Record
  | (key, some value) => r.set key value.spelling
  | (_, none) => r

/-- The record of a list of fields. -/
def Record.ofFields (name : String) (fields : List Field) : Record :=
  fields.foldl addField (ofName name)

/-- A map with a field, if it has a value. -/
def NamedMap.addField (m : Std.HashMap String String) : Field → Std.HashMap String String
  | (key, some value) => m.insert key value.spelling
  | (_, none) => m

/-- The map of a list of fields, seen as an event. -/
def NamedMap.ofFields (name : String) (fields : List Field) : NamedMap :=
  ⟨name, fields.foldl addField ∅⟩

/-- The record with the entries of a map that is seen as an event. -/
def NamedMap.toRecord (m : NamedMap) : Record := .ofMap m.name m.properties

end EventSieve
