import Std.Data.HashSet.Basic
import EventSieve.Gate.Definition
import EventSieve.Sieve.Basic

/-!
# Gates

A gate is a list of named filters, each of which lets events in or keeps them out.

* `Gate.ofDefinitions`: the enabled filters of a list of definitions. Every definition reserves
  its name, also a disabled one; the first definition whose name is taken or whose expression is
  refused is the error.
* `Gate.accepts`: an event is accepted if no excluding filter matches it and, where there are
  including filters, one of them does.
* `Gate.matching`: the names of the filters that match an event.
-/

namespace EventSieve

/-- A filter ready for use. -/
structure Filter where
  name : String
  mode : Mode
  sieve : Sieve

/-- Why definitions make no gate. -/
inductive GateError
  | badExpression (name : String) (cause : ExprError)
  | nameTaken (name : String)
deriving DecidableEq

/-- The wording of an error. -/
def GateError.message : GateError → String
  | badExpression name cause => "Invalid filter '" ++ name ++ "': " ++ cause.message
  | nameTaken name => "Duplicate filter name: " ++ name

namespace Filter

/-- The filter of a definition, whether enabled or not. -/
def ofDefinition (d : Definition) : Except GateError Filter :=
  match Sieve.ofText d.expression with
  | .ok sieve => .ok ⟨d.name, d.mode, sieve⟩
  | .error e => .error (.badExpression d.name e)

variable {ε : Type} [EventLike ε]

/-- Whether a filter's expression holds of an event. -/
def holdsOf (f : Filter) (event : ε) : Bool := f.sieve.accepts event

end Filter

/-- A gate: its filters, in the order of their definitions. -/
structure Gate where
  filters : List Filter

namespace Gate

/-- A gate under construction: the names that are taken and the filters, last first. -/
structure Draft where
  names : Std.HashSet String
  filters : List Filter

/-- One more definition. -/
def Draft.add : Draft → Definition → Except GateError Draft
  | ⟨names, filters⟩, d =>
    if names.contains d.name then .error (.nameTaken d.name)
    else if d.enabled then
      match Filter.ofDefinition d with
      | .ok f => .ok ⟨names.insert d.name, f :: filters⟩
      | .error e => .error e
    else .ok ⟨names.insert d.name, filters⟩

/-- The gate of the enabled filters of a list of definitions. -/
def ofDefinitions (definitions : List Definition) : Except GateError Gate := do
  let draft ← definitions.foldlM Draft.add ⟨∅, []⟩
  return ⟨draft.filters.reverse⟩

/-- The number of filters. -/
def size (g : Gate) : Nat := g.filters.length

/-- Whether a gate has no filter. -/
def isEmpty (g : Gate) : Bool := g.filters.isEmpty

variable {ε : Type} [EventLike ε]

/-- Goes through the filters until an excluding one holds. `sought` tells whether there was an
including filter, `found` whether one of them held; after that no including one is tried. -/
def scan (event : ε) (sought found : Bool) : List Filter → Bool
  | [] => !sought || found
  | f :: filters =>
    match f.mode with
    | .excluding => if f.holdsOf event then false else scan event sought found filters
    | .including => scan event true (found || f.holdsOf event) filters

/-- Whether a gate accepts an event. -/
def accepts (g : Gate) (event : ε) : Bool := scan event false false g.filters

/-- The names of the filters whose expressions hold of an event, in order. -/
def matching (g : Gate) (event : ε) : List String :=
  (g.filters.filter fun f => f.holdsOf event).map Filter.name

end Gate

end EventSieve
