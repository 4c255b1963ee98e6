import Std.Data.HashMap.Basic
import Std.Data.TreeMap.Basic

/-!
# Events

A filter needs two things of an event: its name, and the text of a property by name.

* `EventLike`: events that a filter can be checked against.
* `Record`: an event that owns its properties, listed in the order of their names.
* `NamedMap`: a map of properties with an event name beside it.
* `Record.ofMap`: a record with the entries of a map.
-/

namespace EventSieve

/-- Events that a filter can be checked against. -/
class EventLike (ε : Type) where
  /-- The name of an event. -/
  name : ε → String
  /-- The text of an event's property, if it has the property. -/
  property? : ε → String → Option String

/-- An event with its properties; those of equal name overwrite each other. -/
structure Record where
  name : String
  properties : Std.TreeMap String String

namespace Record

/-- An event without properties. -/
def ofName (name : String) : Record := ⟨name, ∅⟩

/-- The record of empty name and without properties. -/
def empty : Record := ofName ""

/-- A record with a property set to a value, whatever it was before. -/
def set : Record → String → String → Record
  | ⟨name, properties⟩, key, value => ⟨name, properties.insert key value⟩

/-- A record under another name. -/
def rename (r : Record) (name : String) : Record := { r with name }

/-- The value of a property, if it is set. -/
def get? (r : Record) (key : String) : Option String := r.properties[key]?

/-- The properties in the order of their names. -/
def toList (r : Record) : List (String × String) := r.properties.toList

/-- A record with the entries of a map. -/
def ofMap (name : String) (properties : Std.HashMap String String) : Record :=
  properties.toList.foldl (fun r (key, value) => r.set key value) (ofName name)

instance : EventLike Record where
  name r := r.name
  property? := get?

end Record

/-- A map of properties, seen as an event of the given name. -/
structure NamedMap where
  name : String
  properties : Std.HashMap String String

namespace NamedMap

/-- The value of a property, if the map has it. -/
def get? (m : NamedMap) (key : String) : Option String := m.properties[key]?

instance : EventLike NamedMap where
  name m := m.name
  property? := get?

end NamedMap

end EventSieve
