import Std.Data.HashMap.Lemmas
import EventSieve.Proofs.Sieve.Composition
import EventSieve.Sieve.Cache

/-!
# One call of a cache

* `SieveCache.Fetched`: the ways in which a cache answers for a text, with the cache afterwards; every
  later fact about a cache is read off this list.
* `CacheCall`, `CacheAnswer`, `SieveCache.call`: a cache used in one of three ways.
* `SieveCache.Sound`: **every text has the sieve that it makes, and no two texts share a number.**
* `SieveCache.Confines`: only some texts can still be answered with the sieve of a given number.
-/

namespace EventSieve

/-- A use of a cache. The events of different calls may be of different kinds. -/
inductive CacheCall : Type 1
  | fetch (text : String)
  | accepts {ε : Type} [EventLike ε] (text : String) (event : ε)
  | clear

/-- The answer to a call; a sieve is handed out as a value of `σ`. -/
inductive CacheAnswer (σ : Type)
  | sieve (result : Except ExprError σ)
  | verdict (result : Except ExprError Bool)
  | cleared

namespace CacheCall

/-- The text whose sieve a call uses. -/
def text? : CacheCall → Option String
  | fetch text => some text
  | accepts text _ => some text
  | clear => none

/-- The answer to a call when the sieve of its text is made anew. -/
def fresh : CacheCall → CacheAnswer Sieve
  | fetch text => .sieve (Sieve.ofText text)
  | accepts text event => .verdict ((Sieve.ofText text).map fun s => s.accepts event)
  | clear => .cleared

end CacheCall

namespace CacheAnswer

/-- An answer without the number of its sieve. -/
def unshared : CacheAnswer SharedSieve → CacheAnswer Sieve
  | sieve result => .sieve (result.map SharedSieve.sieve)
  | verdict result => .verdict result
  | cleared => .cleared

/-- Whether an answer is an error. -/
def Fails {σ : Type} : CacheAnswer σ → Prop
  | sieve result => ∃ e, result = .error e
  | verdict result => ∃ e, result = .error e
  | cleared => False

end CacheAnswer

/-- A text is a filter expression if it makes a sieve. -/
theorem Sieve.isValid_iff {text : String} :
    Expr.isValid text = true ↔ ∃ s, Sieve.ofText text = .ok s := by
  unfold Expr.isValid
  cases h : Expr.read text with
  | ok root => exact iff_of_true rfl ⟨⟨text, root⟩, Sieve.ofText_eq_ok_iff.2 ⟨rfl, h⟩⟩
  | error e =>
    refine iff_of_false Bool.false_ne_true ?_
    rintro ⟨s, hs⟩
    rw [(Sieve.ofText_eq_ok_iff.1 hs).2] at h
    cases h

namespace SieveCache

/-- A call's answer and the cache after it. -/
def call (cache : SieveCache) : CacheCall → CacheAnswer SharedSieve × SieveCache
  | .fetch text =>
    let (result, cache) := cache.fetch text
    (.sieve result, cache)
  | @CacheCall.accepts _ _ text event =>
    let (result, cache) := cache.accepts text event
    (.verdict result, cache)
  | .clear => (.cleared, cache.clear)

/-- The ways in which a cache answers for a text, with the cache afterwards. -/
inductive Fetched (cache : SieveCache) (text : String) :
    Except ExprError SharedSieve → SieveCache → Prop
  | found {shared : SharedSieve} : cache.entries[text]? = some shared →
      Fetched cache text (.ok shared) cache
  | made {sieve : Sieve} : cache.entries[text]? = none → Sieve.ofText text = .ok sieve →
      Fetched cache text (.ok ⟨cache.stored, sieve⟩)
        ⟨cache.entries.insert text ⟨cache.stored, sieve⟩, cache.stored + 1⟩
  | refused {e : ExprError} : cache.entries[text]? = none → Sieve.ofText text = .error e →
      Fetched cache text (.error e) cache

variable {cache after : SieveCache} {text key : String} {shared : SharedSieve}
  {result : Except ExprError SharedSieve}

/-- **A cache answers in one of these ways.** -/
theorem fetched_fetch (cache : SieveCache) (text : String) :
    Fetched cache text (cache.fetch text).1 (cache.fetch text).2 := by
  unfold fetch
  split
  · next shared h => exact .found h
  · next h =>
    split
    · next sieve hs =>
      -- the sieve is stored under its own text, which is the one it was made from
      obtain rfl : sieve.text = text := (Sieve.ofText_eq_ok_iff.1 hs).1
      exact .made h hs
    · next e he => exact .refused h he

/-- What a map holds after one more entry. -/
theorem getElem?_insert_eq_some {entries : Std.HashMap String SharedSieve} {new : SharedSieve}
    (h : (entries.insert text new)[key]? = some shared) :
    text = key ∧ new = shared ∨ text ≠ key ∧ entries[key]? = some shared := by
  rw [Std.HashMap.getElem?_insert] at h
  split at h
  · next hk => exact .inl ⟨eq_of_beq hk, Option.some.inj h⟩
  · next hk => exact .inr ⟨fun he => hk (beq_iff_eq.2 he), h⟩

/-- What holds of the entries of every cache: a text has the sieve that it makes, under a number that
was given out and belongs to this text alone. -/
structure Sound (cache : SieveCache) : Prop where
  made : ∀ {text : String} {shared : SharedSieve}, cache.entries[text]? = some shared →
    Sieve.ofText text = .ok shared.sieve
  numbered : ∀ {text : String} {shared : SharedSieve}, cache.entries[text]? = some shared →
    shared.serial < cache.stored
  unique : ∀ {text₁ text₂ : String} {shared₁ shared₂ : SharedSieve},
    cache.entries[text₁]? = some shared₁ → cache.entries[text₂]? = some shared₂ →
    shared₁.serial = shared₂.serial → text₁ = text₂

theorem getElem?_of_isEmpty (h : cache.isEmpty = true) (text : String) :
    cache.entries[text]? = none :=
  Std.HashMap.getElem?_of_isEmpty h

theorem isEmpty_clear (cache : SieveCache) : cache.clear.isEmpty = true :=
  Std.HashMap.isEmpty_empty

theorem sound_of_isEmpty (h : cache.isEmpty = true) : Sound cache := by
  have hnone : ∀ {text : String} {shared : SharedSieve}, cache.entries[text]? ≠ some shared := by
    intro text shared hs
    rw [getElem?_of_isEmpty h] at hs
    cases hs
  exact ⟨fun hs => absurd hs hnone, fun hs => absurd hs hnone, fun hs => absurd hs hnone⟩

/-- **An answer keeps a cache sound**: a sieve newly stored gets a number that none has. -/
theorem Sound.fetched (h : Sound cache) (hf : Fetched cache text result after) : Sound after := by
  cases hf with
  | found _ => exact h
  | refused _ _ => exact h
  | @made sieve _ hs =>
    have hnew : ∀ {key : String} {shared : SharedSieve},
        cache.entries[key]? = some shared → shared.serial ≠ cache.stored :=
      fun he => Nat.ne_of_lt (h.numbered he)
    refine ⟨fun he => ?_, fun he => ?_, fun he₁ he₂ hserial => ?_⟩
    · rcases getElem?_insert_eq_some he with ⟨rfl, rfl⟩ | ⟨-, he⟩
      · exact hs
      · exact h.made he
    · rcases getElem?_insert_eq_some he with ⟨rfl, rfl⟩ | ⟨-, he⟩
      · exact Nat.lt_succ_self cache.stored
      · exact Nat.lt_succ_of_lt (h.numbered he)
    · rcases getElem?_insert_eq_some he₁ with ⟨rfl, rfl⟩ | ⟨-, he₁⟩
      · rcases getElem?_insert_eq_some he₂ with ⟨rfl, -⟩ | ⟨-, he₂⟩
        · rfl
        · exact absurd hserial.symm (hnew he₂)
      · rcases getElem?_insert_eq_some he₂ with ⟨rfl, rfl⟩ | ⟨-, he₂⟩
        · exact absurd hserial (hnew he₁)
        · exact h.unique he₁ he₂ hserial

/-- An answer is what making the sieve anew gives, but for its number. -/
theorem Sound.fetched_unshared (h : Sound cache) (hf : Fetched cache text result after) :
    result.map SharedSieve.sieve = Sieve.ofText text := by
  cases hf with
  | found he => exact (h.made he).symm
  | made _ hs => exact hs.symm
  | refused _ hs => exact hs.symm

/-- An error leaves the cache as it is. -/
theorem Fetched.of_error {e : ExprError} (hf : Fetched cache text (.error e) after) :
    after = cache := by
  cases hf
  rfl

/-- A sieve that is handed out is in the cache afterwards. -/
theorem Fetched.getElem?_of_ok (hf : Fetched cache text (.ok shared) after) :
    after.entries[text]? = some shared := by
  cases hf with
  | found he => exact he
  | made _ _ => exact Std.HashMap.getElem?_insert_self

/-- An answer takes nothing out of the cache. -/
theorem Fetched.getElem?_mono (hf : Fetched cache text result after)
    (h : cache.entries[key]? = some shared) : after.entries[key]? = some shared := by
  cases hf with
  | found _ => exact h
  | refused _ _ => exact h
  | made hnone _ =>
    have hne : (text == key) = false := by
      rw [beq_eq_false_iff_ne]
      rintro rfl
      rw [hnone] at h
      cases h
    rw [Std.HashMap.getElem?_insert, hne]
    exact h

/-- The texts in the cache after an answer are those before it, and the text asked for if it makes a
sieve. -/
theorem Fetched.mem_iff (hf : Fetched cache text result after) :
    key ∈ after.entries ↔ key ∈ cache.entries ∨ key = text ∧ Expr.isValid text = true := by
  cases hf with
  | found he =>
    have hmem : text ∈ cache.entries := by
      rw [Std.HashMap.mem_iff_isSome_getElem?, he]
      rfl
    constructor
    · exact .inl
    · rintro (h | ⟨rfl, -⟩)
      · exact h
      · exact hmem
  | made _ hs =>
    have hvalid : Expr.isValid text = true := Sieve.isValid_iff.2 ⟨_, hs⟩
    rw [Std.HashMap.mem_insert, beq_iff_eq, or_comm, eq_comm]
    simp only [hvalid, and_true]
  | refused _ he =>
    have hinvalid : ¬Expr.isValid text = true := by
      intro h
      obtain ⟨s, hs⟩ := Sieve.isValid_iff.1 h
      rw [he] at hs
      cases hs
    constructor
    · exact .inl
    · rintro (h | ⟨-, h⟩)
      · exact h
      · exact absurd h hinvalid

/-- The number `n` has been given out, and only a text with `P` can have the sieve of that number. -/
structure Confines (cache : SieveCache) (n : Nat) (P : String → Prop) : Prop where
  given : n < cache.stored
  confined : ∀ {text : String} {shared : SharedSieve}, cache.entries[text]? = some shared →
    shared.serial = n → P text

variable {n : Nat} {P Q : String → Prop}

theorem Confines.imp (h : cache.Confines n P) (hPQ : ∀ text, P text → Q text) :
    cache.Confines n Q :=
  ⟨h.given, fun he hn => hPQ _ (h.confined he hn)⟩

/-- **No number is given out twice**, so an answer keeps a number with its texts. -/
theorem Confines.fetched (h : cache.Confines n P) (hf : Fetched cache text result after) :
    after.Confines n P := by
  cases hf with
  | found _ => exact h
  | refused _ _ => exact h
  | made _ _ =>
    refine ⟨Nat.lt_succ_of_lt h.given, fun he hn => ?_⟩
    rcases getElem?_insert_eq_some he with ⟨-, rfl⟩ | ⟨-, he⟩
    · exact absurd hn (Nat.ne_of_gt h.given)
    · exact h.confined he hn

/-- A sieve that is handed out under the number is one of a text with `P`. -/
theorem Confines.of_ok (h : cache.Confines n P) (hf : Fetched cache text (.ok shared) after)
    (hn : shared.serial = n) : P text := by
  cases hf with
  | found he => exact h.confined he hn
  | made _ _ => exact absurd hn (Nat.ne_of_gt h.given)

/-- After a clearing no text has the sieve of a number given out before. -/
theorem Confines.clear (h : cache.Confines n P) : cache.clear.Confines n Q := by
  refine ⟨h.given, fun he _ => ?_⟩
  rw [getElem?_of_isEmpty (isEmpty_clear cache)] at he
  cases he

/-- A sieve just handed out has a number of its own. -/
theorem Sound.confines (h : Sound cache) (he : cache.entries[text]? = some shared) :
    cache.Confines shared.serial (· = text) :=
  ⟨h.numbered he, fun he' hn => h.unique he' he hn⟩

/-- A call that uses a text leaves the cache as fetching the text does. -/
theorem call_of_text? {c : CacheCall} (h : c.text? = some text) :
    (cache.call c).2 = (cache.fetch text).2 := by
  cases c with
  | fetch t =>
    cases h
    rfl
  | accepts t event =>
    cases h
    rfl
  | clear => cases h

theorem eq_clear_of_text? {c : CacheCall} (h : c.text? = none) : c = .clear := by
  cases c with
  | fetch t => cases h
  | accepts t event => cases h
  | clear => rfl

/-- **A call keeps a cache sound.** -/
theorem Sound.call (h : Sound cache) (c : CacheCall) : Sound (cache.call c).2 := by
  cases ht : c.text? with
  | none =>
    rw [eq_clear_of_text? ht]
    exact sound_of_isEmpty (isEmpty_clear cache)
  | some text =>
    rw [call_of_text? ht]
    exact h.fetched (fetched_fetch cache text)

/-- **A call is answered as if the sieve were made anew.** -/
theorem Sound.call_unshared (h : Sound cache) (c : CacheCall) :
    (cache.call c).1.unshared = c.fresh := by
  cases c with
  | fetch text => exact congrArg CacheAnswer.sieve (h.fetched_unshared (fetched_fetch cache text))
  | accepts text event =>
    have hmap : (cache.fetch text).1.map (fun shared => shared.sieve.accepts event) =
        ((cache.fetch text).1.map SharedSieve.sieve).map fun s => s.accepts event := by
      cases (cache.fetch text).1 with
      | ok shared => rfl
      | error e => rfl
    change CacheAnswer.verdict ((cache.fetch text).1.map fun shared => shared.sieve.accepts event) = _
    rw [hmap, h.fetched_unshared (fetched_fetch cache text)]
    rfl
  | clear => rfl

/-- **A call that fails leaves the cache as it is.** -/
theorem call_of_fails {c : CacheCall} (h : (cache.call c).1.Fails) : (cache.call c).2 = cache := by
  have hfetch : ∀ text e, (cache.fetch text).1 = .error e → (cache.fetch text).2 = cache := by
    intro text e he
    have hf := fetched_fetch cache text
    rw [he] at hf
    exact hf.of_error
  cases c with
  | fetch text =>
    obtain ⟨e, he⟩ := h
    exact hfetch text e he
  | accepts text event =>
    obtain ⟨e, he⟩ := h
    change (cache.fetch text).1.map (fun shared => shared.sieve.accepts event) = .error e at he
    cases hr : (cache.fetch text).1 with
    | ok shared =>
      rw [hr] at he
      cases he
    | error e' => exact hfetch text e' hr
  | clear => exact h.elim

end SieveCache

end EventSieve
