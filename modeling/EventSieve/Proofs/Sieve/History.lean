import Mathlib.Data.List.Dedup
import Mathlib.Data.List.DropRight
import EventSieve.Event.Basic
import EventSieve.Proofs.Sieve.Cache

/-!
# Histories of a cache

* `SieveCache.run`: the answers to a list of calls, and the cache after them.
* `SieveCache.stateAt`: the cache after the first `n` calls.
* `textsInUse`: the valid texts that calls have used since the cache was last cleared.
* `SieveCache.serial_eq_iff`: **two fetched sieves are the same one exactly if they are those of one
  text, with no clearing between the two calls.**
* `SieveCache.run_transparent`: **a cache answers every list of calls as if each sieve were made
  anew**, and holds the texts in use.
-/

namespace EventSieve

/-- The valid texts that calls use after the last clearing among them. -/
def textsInUse (calls : List CacheCall) : List String :=
  ((calls.rtakeWhile fun c => c.text?.isSome).filterMap CacheCall.text?).filter Expr.isValid

theorem textsInUse_concat_clear (calls : List CacheCall) :
    textsInUse (calls ++ [.clear]) = [] := by
  unfold textsInUse
  rw [List.rtakeWhile_concat]
  rfl

theorem mem_textsInUse_concat {calls : List CacheCall} {c : CacheCall} {text key : String}
    (h : c.text? = some text) :
    key ∈ textsInUse (calls ++ [c]) ↔
      key ∈ textsInUse calls ∨ key = text ∧ Expr.isValid text = true := by
  have htext : (calls ++ [c]).rtakeWhile (fun c => c.text?.isSome) =
      calls.rtakeWhile (fun c => c.text?.isSome) ++ [c] := by
    rw [List.rtakeWhile_concat, h]
    rfl
  have hone : [c].filterMap CacheCall.text? = [text] := by
    rw [List.filterMap_cons_some h, List.filterMap_nil]
  unfold textsInUse
  rw [htext, List.filterMap_append, hone, List.filter_append, List.mem_append]
  refine or_congr_right ?_
  rw [List.mem_filter, List.mem_singleton]
  exact and_congr_right fun hk => by rw [hk]

namespace SieveCache

/-- The answers to a list of calls, and the cache after them. -/
def run (cache : SieveCache) : List CacheCall → List (CacheAnswer SharedSieve) × SieveCache
  | [] => ([], cache)
  | c :: calls =>
    let (answer, cache) := cache.call c
    let (answers, cache) := cache.run calls
    (answer :: answers, cache)

/-- The cache after the first `n` of a list of calls. -/
def stateAt (start : SieveCache) (calls : List CacheCall) (n : Nat) : SieveCache :=
  (start.run (calls.take n)).2

variable {start : SieveCache} {calls : List CacheCall}

theorem run_concat (cache : SieveCache) (calls : List CacheCall) (c : CacheCall) :
    (cache.run (calls ++ [c])).2 = ((cache.run calls).2.call c).2 := by
  induction calls generalizing cache with
  | nil => rfl
  | cons d calls ih => exact ih (cache.call d).2

theorem stateAt_succ {n : Nat} (h : n < calls.length) :
    start.stateAt calls (n + 1) = ((start.stateAt calls n).call calls[n]).2 := by
  unfold stateAt
  rw [← List.take_append_getElem h, run_concat]

/-- The answer to a call is the one of the cache after the calls before it. -/
theorem answer_at (start : SieveCache) (calls : List CacheCall) (n : Nat) :
    (start.run calls).1[n]? = calls[n]?.map fun c => ((start.stateAt calls n).call c).1 := by
  induction calls generalizing start n with
  | nil => rfl
  | cons c calls ih =>
    cases n with
    | zero => rfl
    | succ n => exact ih (start.call c).2 n

/-- **After every list of calls a cache is sound.** -/
theorem Sound.run (h : Sound start) (calls : List CacheCall) : Sound (start.run calls).2 := by
  induction calls generalizing start with
  | nil => exact h
  | cons c calls ih => exact ih (h.call c)

/-- **Every call is answered as if its sieve were made anew.** -/
theorem Sound.run_unshared (h : Sound start) (calls : List CacheCall) :
    (start.run calls).1.map CacheAnswer.unshared = calls.map CacheCall.fresh := by
  induction calls generalizing start with
  | nil => rfl
  | cons c calls ih =>
    rw [List.map_cons, ← h.call_unshared c, ← ih (h.call c)]
    rfl

/-- **The texts of a cache are those in use.** -/
theorem mem_run_iff (h : start.isEmpty = true) (calls : List CacheCall) (text : String) :
    text ∈ (start.run calls).2.entries ↔ text ∈ textsInUse calls := by
  induction calls using List.reverseRecOn with
  | nil =>
    have hout : text ∉ start.entries := Std.HashMap.not_mem_of_isEmpty h
    exact iff_of_false hout List.not_mem_nil
  | append_singleton calls c ih =>
    rw [run_concat]
    cases ht : c.text? with
    | none =>
      have hout : text ∉ (start.run calls).2.clear.entries := Std.HashMap.not_mem_empty
      rw [eq_clear_of_text? ht, textsInUse_concat_clear]
      exact iff_of_false hout List.not_mem_nil
    | some used =>
      rw [call_of_text? ht, (fetched_fetch _ used).mem_iff, mem_textsInUse_concat ht, ih]

/-- The number of sieves in a cache is the number of different texts in use. -/
theorem size_run (h : start.isEmpty = true) (calls : List CacheCall) :
    (start.run calls).2.size = (textsInUse calls).dedup.length := by
  -- neither list has a text twice, and both have the same texts
  have hperm : (start.run calls).2.entries.keys.Perm (textsInUse calls).dedup := by
    refine (List.perm_ext_iff_of_nodup Std.HashMap.nodup_keys (List.nodup_dedup _)).2 fun text => ?_
    rw [Std.HashMap.mem_keys, List.mem_dedup, mem_run_iff h]
  rw [← hperm.length_eq, Std.HashMap.length_keys]
  rfl

/-- No call strictly between the `i`-th and the `j`-th clears the cache. -/
def NoClearBetween (calls : List CacheCall) (i j : Nat) : Prop :=
  ∀ n, i < n → n < j → calls[n]? ≠ some .clear

variable {i j : Nat} {text₁ text₂ : String} {a b : SharedSieve}

theorem noClearBetween_succ (h : calls[j]? ≠ some .clear) :
    NoClearBetween calls i (j + 1) ↔ NoClearBetween calls i j := by
  constructor
  · exact fun hno n hn hnj => hno n hn (by omega)
  · intro hno n hn hnj
    rcases Nat.lt_succ_iff_lt_or_eq.1 hnj with hlt | rfl
    · exact hno n hn hlt
    · exact h

/-- What an answer to a fetching call says of the caches before and after it. -/
theorem fetched_of_answer (hc : calls[i]? = some (.fetch text₁))
    (ha : (start.run calls).1[i]? = some (.sieve (.ok a))) :
    Fetched (start.stateAt calls i) text₁ (.ok a) (start.stateAt calls (i + 1)) := by
  obtain ⟨hi, hget⟩ := List.getElem?_eq_some_iff.1 hc
  rw [answer_at, hc, Option.map_some, Option.some.injEq] at ha
  have hok : ((start.stateAt calls i).fetch text₁).1 = .ok a := CacheAnswer.sieve.inj ha
  have hf := fetched_fetch (start.stateAt calls i) text₁
  rw [hok] at hf
  rw [stateAt_succ hi, hget]
  exact hf

/-- Fetching a valid text hands out a sieve. -/
theorem Sound.exists_answer (h : Sound start) (hc : calls[i]? = some (.fetch text₁))
    (hvalid : Expr.isValid text₁ = true) :
    ∃ shared, (start.run calls).1[i]? = some (.sieve (.ok shared)) := by
  obtain ⟨s, hs⟩ := Sieve.isValid_iff.1 hvalid
  have hfresh := (h.run (calls.take i)).fetched_unshared (fetched_fetch _ text₁)
  rw [answer_at, hc]
  cases hr : ((start.stateAt calls i).fetch text₁).1 with
  | ok shared => exact ⟨shared, congrArg (fun r => some (CacheAnswer.sieve r)) hr⟩
  | error e =>
    change ((start.stateAt calls i).fetch text₁).1.map SharedSieve.sieve = _ at hfresh
    rw [hr, hs] at hfresh
    cases hfresh

/-- **From the call that hands out a sieve on**, only its text can have a sieve of that number, and
only as long as the cache is not cleared; until then the text does have it. -/
theorem held_since (h : Sound start) (hc : calls[i]? = some (.fetch text₁))
    (ha : (start.run calls).1[i]? = some (.sieve (.ok a))) (hij : i < j) (hj : j ≤ calls.length) :
    (start.stateAt calls j).Confines a.serial (fun text => text = text₁ ∧ NoClearBetween calls i j) ∧
    (NoClearBetween calls i j → (start.stateAt calls j).entries[text₁]? = some a) := by
  induction j, hij using Nat.le_induction with
  | base =>
    have hheld := (fetched_of_answer hc ha).getElem?_of_ok
    have hsound : Sound (start.stateAt calls (i + 1)) := h.run _
    exact ⟨(hsound.confines hheld).imp fun text ht => ⟨ht, fun n _ _ => by omega⟩, fun _ => hheld⟩
  | succ j hij ih =>
    obtain ⟨hconfined, hheld⟩ := ih (by omega)
    have hget : calls[j]? = some calls[j] := List.getElem?_eq_getElem (by omega)
    rw [stateAt_succ (by omega)]
    cases ht : calls[j].text? with
    | none =>
      have hclear : calls[j] = .clear := eq_clear_of_text? ht
      rw [hclear]
      -- this call is itself the clearing that the second half excludes
      refine ⟨hconfined.clear, fun hno => ?_⟩
      exact absurd (hclear ▸ hget) (hno j hij (Nat.lt_succ_self j))
    | some text =>
      have hf := fetched_fetch (start.stateAt calls j) text
      have hstay : calls[j]? ≠ some .clear := by
        rw [hget]
        intro he
        rw [Option.some.inj he] at ht
        cases ht
      have hno := noClearBetween_succ (i := i) hstay
      rw [call_of_text? ht]
      refine ⟨(hconfined.fetched hf).imp fun key hk => ⟨hk.1, hno.2 hk.2⟩, fun h => ?_⟩
      exact hf.getElem?_mono (hheld (hno.1 h))

/-- **Two fetched sieves are the same one** exactly if they are those of one text and the cache is not
cleared between the two calls. -/
theorem serial_eq_iff (h : Sound start) (hij : i < j) (hc₁ : calls[i]? = some (.fetch text₁))
    (hc₂ : calls[j]? = some (.fetch text₂)) (ha : (start.run calls).1[i]? = some (.sieve (.ok a)))
    (hb : (start.run calls).1[j]? = some (.sieve (.ok b))) :
    a.serial = b.serial ↔ text₁ = text₂ ∧ NoClearBetween calls i j := by
  obtain ⟨hj, -⟩ := List.getElem?_eq_some_iff.1 hc₂
  obtain ⟨hconfined, hheld⟩ := held_since h hc₁ ha hij (Nat.le_of_lt hj)
  have hf := fetched_of_answer hc₂ hb
  constructor
  · intro hserial
    obtain ⟨htext, hno⟩ := hconfined.of_ok hf hserial.symm
    exact ⟨htext.symm, hno⟩
  · rintro ⟨rfl, hno⟩
    -- the text still has the first sieve, also after the second call
    have hafter := hf.getElem?_mono (hheld hno)
    rw [hf.getElem?_of_ok, Option.some.injEq] at hafter
    rw [hafter]

/-- **A cache is transparent.** A cache that starts without sieves answers every list of calls as if
the sieve of each were made anew, errors included; a call that fails changes nothing. Afterwards each
text in the cache has the sieve that it makes, and there are as many as different valid texts were used
since the last clearing. Two fetched sieves are the same one exactly if they are those of one text and
the cache is not cleared between the two calls. -/
theorem run_transparent (start : SieveCache) (h : start.isEmpty = true) (calls : List CacheCall) :
    let answers := (start.run calls).1
    let cache := (start.run calls).2
    answers.map CacheAnswer.unshared = calls.map CacheCall.fresh ∧
    (∀ c, (cache.call c).1.Fails → (cache.call c).2 = cache) ∧
    (∀ text shared, cache.entries[text]? = some shared →
      shared.sieve.text = text ∧ Expr.read text = .ok shared.sieve.root) ∧
    cache.size = (textsInUse calls).dedup.length ∧
    ∀ i j text₁ text₂ a b, i < j →
      calls[i]? = some (.fetch text₁) → calls[j]? = some (.fetch text₂) →
      answers[i]? = some (.sieve (.ok a)) → answers[j]? = some (.sieve (.ok b)) →
      (a.serial = b.serial ↔ text₁ = text₂ ∧ NoClearBetween calls i j) := by
  intro answers cache
  have hstart : Sound start := sound_of_isEmpty h
  refine ⟨hstart.run_unshared calls, fun c => call_of_fails, fun text shared he => ?_,
    size_run h calls, fun i j text₁ text₂ a b hij hc₁ hc₂ ha hb => ?_⟩
  · exact Sieve.ofText_eq_ok_iff.1 ((hstart.run calls).made he)
  · exact serial_eq_iff hstart hij hc₁ hc₂ ha hb

/-- A text is fetched three times, with another one used and one refused between the first two times,
and a clearing before the last one. -/
theorem run_transparent_cleared :
    let calls : List CacheCall := [.fetch "A == 1", .accepts "B == 2" (Record.ofName "E"), .fetch "A <",
      .fetch "A == 1", .clear, .fetch "A == 1"]
    let answers := (empty.run calls).1
    empty.isEmpty = true ∧ ∃ a b c, answers[0]? = some (.sieve (.ok a)) ∧
      answers[3]? = some (.sieve (.ok b)) ∧ answers[5]? = some (.sieve (.ok c)) ∧
      a.serial = b.serial ∧ a.serial ≠ c.serial := by
  intro calls answers
  have hempty : empty.isEmpty = true := Std.HashMap.isEmpty_empty
  have hstart : Sound empty := sound_of_isEmpty hempty
  have hvalid : Expr.isValid "A == 1" = true := by rfl
  have hfetched : ∀ i : Nat, calls[i]? = some (.fetch "A == 1") →
      ∃ shared, answers[i]? = some (.sieve (.ok shared)) :=
    fun i hi => hstart.exists_answer hi hvalid
  obtain ⟨a, ha⟩ := hfetched 0 rfl
  obtain ⟨b, hb⟩ := hfetched 3 rfl
  obtain ⟨c, hc⟩ := hfetched 5 rfl
  have hsame := (run_transparent empty hempty calls).2.2.2.2
  refine ⟨hempty, a, b, c, ha, hb, hc, ?_, fun h => ?_⟩
  · refine (hsame 0 3 _ _ a b (by decide) rfl rfl ha hb).2 ⟨rfl, fun n h₀ h₃ => ?_⟩
    obtain rfl | rfl : n = 1 ∨ n = 2 := by omega
    · exact fun h => nomatch h
    · exact fun h => nomatch h
  · exact ((hsame 0 5 _ _ a c (by decide) rfl rfl ha hc).1 h).2 4 (by decide) (by decide) rfl

end SieveCache

end EventSieve
