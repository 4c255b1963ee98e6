import EventSieve.Sieve.Basic

/-!
# Sieving a stream

`Sifted` is a stream of events behind a sieve: `Sifted.next` takes events until one passes, and
`Sifted.hint` bounds how many are still to come.
-/

namespace EventSieve

/-- A stream of events of which only those come out that pass a sieve. -/
structure Sifted (ε : Type) where
  sieve : Sieve
  /-- The events not yet taken. -/
  remaining : List ε

namespace Sifted

variable {ε : Type} [EventLike ε]

/-- A stream of the given events behind a sieve. -/
def ofList (sieve : Sieve) (events : List ε) : Sifted ε := ⟨sieve, events⟩

/-- The next event that passes and the stream after it. None when no event is left that passes; the
stream is then empty. -/
def next (s : Sifted ε) : Option ε × Sifted ε :=
  match s.remaining.dropWhile (fun event => !s.sieve.accepts event) with
  | [] => (none, { s with remaining := [] })
  | event :: rest => (some event, { s with remaining := rest })

/-- Bounds on the number of events that are still to come out: the lower one is zero, since none of
the remaining events is known to pass. -/
def hint (s : Sifted ε) : Nat × Nat := (0, s.remaining.length)

/-- All events that are still to come out, in order. -/
def toList (s : Sifted ε) : List ε := s.remaining.filter fun event => s.sieve.accepts event

end Sifted

end EventSieve
