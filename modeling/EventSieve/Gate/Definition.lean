/-!
# Definitions of named filters

A definition names a filter expression and says whether it lets events in or keeps them out. Filters
let events in and are enabled unless said otherwise.
-/

namespace EventSieve

/-- Whether a filter lets the events in that it matches, or keeps them out. -/
inductive Mode
  | including
  | excluding
deriving DecidableEq

/-- The spelling of a mode. -/
def Mode.name : Mode → String
  | including => "include"
  | excluding => "exclude"

/-- The mode that a word spells. -/
def Mode.ofName? (word : String) : Option Mode :=
  if word = "include" then some .including
  else if word = "exclude" then some .excluding
  else none

/-- The definition of a named filter; its expression is a text that may be wrong. -/
structure Definition where
  name : String
  expression : String
  mode : Mode := .including
  enabled : Bool := true
deriving DecidableEq

namespace Definition

/-- A definition of a filter that keeps events out. -/
def excluding (d : Definition) : Definition := { d with mode := .excluding }

/-- A definition of a filter that is not used. -/
def disabled (d : Definition) : Definition := { d with enabled := false }

end Definition

/-- A mode's spelling is read as that mode. -/
theorem Mode.ofName?_name (m : Mode) : Mode.ofName? m.name = some m := by cases m <;> rfl

end EventSieve
