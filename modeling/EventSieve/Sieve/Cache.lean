import Std.Data.HashMap.Basic
import EventSieve.Sieve.Basic

/-!
# A cache of sieves

The cache makes the sieve of a text once and hands out the same one until it is cleared. Each sieve
that it stores gets a serial number, so that two answers are the same sieve exactly when their
numbers agree.

* `SieveCache.fetch`: the stored sieve of a text, made and stored if there is none.
* `SieveCache.accepts`: the verdict of a text's sieve on an event.
* `SieveCache.clear`: the cache without its sieves; serial numbers are never given twice.
-/

namespace EventSieve

/-- A sieve handed out by a cache. -/
structure SharedSieve where
  /-- Which of the sieves ever stored this is. -/
  serial : Nat
  sieve : Sieve

/-- Sieves by the text they were made from. -/
structure SieveCache where
  entries : Std.HashMap String SharedSieve
  /-- How many sieves were ever stored. -/
  stored : Nat

namespace SieveCache

/-- A cache without sieves. -/
def empty : SieveCache := ⟨∅, 0⟩

/-- The cache with one more sieve, and that sieve. -/
def store : SieveCache → Sieve → SharedSieve × SieveCache
  | ⟨entries, stored⟩, sieve =>
    let shared : SharedSieve := ⟨stored, sieve⟩
    (shared, ⟨entries.insert sieve.text shared, stored + 1⟩)

/-- The sieve of a text, from the cache or newly made and stored; a text that is refused leaves the
cache as it is. -/
def fetch (cache : SieveCache) (text : String) : Except ExprError SharedSieve × SieveCache :=
  match cache.entries[text]? with
  | some shared => (.ok shared, cache)
  | none =>
    match Sieve.ofText text with
    | .ok sieve =>
      let (shared, cache) := cache.store sieve
      (.ok shared, cache)
    | .error e => (.error e, cache)

/-- The verdict of a text's sieve on an event; the sieve is stored as `fetch` does. -/
def accepts {ε : Type} [EventLike ε] (cache : SieveCache) (text : String) (event : ε) :
    Except ExprError Bool × SieveCache :=
  let (result, cache) := cache.fetch text
  (result.map fun shared => shared.sieve.accepts event, cache)

/-- The number of sieves in the cache. -/
def size (cache : SieveCache) : Nat := cache.entries.size

/-- Whether the cache holds no sieve. -/
def isEmpty (cache : SieveCache) : Bool := cache.entries.isEmpty

/-- The cache without its sieves. -/
def clear (cache : SieveCache) : SieveCache := { cache with entries := ∅ }

end SieveCache

end EventSieve
