import Mathlib.Data.List.Basic
import EventSieve.Proofs.Expr.Reader

/-!
# Splitting ranges of tokens

The tree of a range of tokens, found from the outside in: parentheses around the whole range are
taken off; else the range is split at its first connective outside parentheses; else it is a clause.

* `nesting`: how many more parentheses a list of tokens opens than it closes.
* `cutAt`: a range cut at the first token that passes a test; `interior?` and `cutAtConnective?` are
  the two cuts above.
* `Expr.ofRange?`: the splitting of a range.
* `ofRange?_eq_some_iff`: splitting finds the trees of the grammar.
* `read_iff_ofRange?`: **reading a text with a stack of open levels finds the tree that splitting its
  tokens finds.**
-/

namespace EventSieve

/-- How many more parentheses are opened than closed. -/
def nesting (ts : List Token) : Int := (ts.count .opening : Int) - ts.count .closing

/-- A list of tokens cut at the first token that passes a test, which also sees the tokens before
it: those before, the token, and those after. -/
def cutAt (test : List Token → Token → Bool) (before : List Token) :
    List Token → Option (List Token × Token × List Token)
  | [] => none
  | t :: ts => if test before t then some (before, t, ts) else cutAt test (before ++ [t]) ts

/-- Whether a parenthesis after `before` closes the first one of the range. -/
def closesRange (before : List Token) (t : Token) : Bool :=
  t == .closing && nesting (before ++ [t]) == 0

/-- Whether a token after `before` is a connective outside parentheses. -/
def joinsRange (before : List Token) : Token → Bool
  | .connective _ => nesting before == 0
  | _ => false

/-- The range between the first and the last token, if these are a pair of parentheses. -/
def interior? (r : List Token) : Option (List Token) :=
  match cutAt closesRange [] r with
  | some (.opening :: inside, _, []) => some inside
  | _ => none

/-- A range split at its first connective outside parentheses. -/
def cutAtConnective? (r : List Token) : Option (List Token × Connective × List Token) :=
  match cutAt joinsRange [] r with
  | some (left, .connective k, right) => some (left, k, right)
  | _ => none

variable {test : List Token → Token → Bool} {before r b a ts us : List Token} {t : Token}
  {k : Connective} {e : Expr}

/-- No token of `t :: ts` passes the test: neither `t` nor one of those after it. -/
theorem fails_cons_iff : (∀ u y v, t :: ts = u ++ y :: v → test (before ++ u) y = false) ↔
    test before t = false ∧ ∀ u y v, ts = u ++ y :: v → test (before ++ [t] ++ u) y = false := by
  constructor
  · intro h
    refine ⟨by simpa using h [] t ts rfl, fun u y v huv => ?_⟩
    simpa using h (t :: u) y v (by rw [huv]; rfl)
  · rintro ⟨ht, hts⟩ u y v huv
    cases u with
    | nil =>
      obtain ⟨rfl, -⟩ := List.cons.inj huv
      rwa [List.append_nil]
    | cons z u =>
      obtain ⟨rfl, hrest⟩ := List.cons.inj huv
      simpa using hts u y v hrest

/-- **What a cut finds** is the first token that passes the test. -/
theorem cutAt_eq_some_iff :
    cutAt test before r = some (b, t, a) ↔ ∃ m, b = before ++ m ∧ r = m ++ t :: a ∧
      test (before ++ m) t = true ∧
      ∀ u x v, m = u ++ x :: v → test (before ++ u) x = false := by
  induction r generalizing before with
  | nil => simp [cutAt]
  | cons x r ih =>
    rw [cutAt]
    split
    · next hx =>
      constructor
      · intro h
        cases h
        refine ⟨[], by simp, rfl, by simpa using hx, fun u y v huv => ?_⟩
        simp at huv
      · rintro ⟨m, rfl, hr, -, hm⟩
        cases m with
        | nil =>
          cases hr
          rw [List.append_nil]
        | cons y m =>
          obtain ⟨rfl, -⟩ := List.cons.inj hr
          exact absurd ((fails_cons_iff.1 hm).1.symm.trans hx) Bool.false_ne_true
    · next hx =>
      rw [ih]
      constructor
      · rintro ⟨m, rfl, rfl, ht, hm⟩
        exact ⟨x :: m, by simp, rfl, by simpa using ht, fails_cons_iff.2 ⟨by simpa using hx, hm⟩⟩
      · rintro ⟨m, rfl, hr, ht, hm⟩
        cases m with
        | nil =>
          obtain ⟨rfl, rfl⟩ := List.cons.inj hr
          rw [List.append_nil] at ht
          exact absurd ht hx
        | cons y m =>
          obtain ⟨rfl, rfl⟩ := List.cons.inj hr
          exact ⟨m, by simp, rfl, by simpa using ht, (fails_cons_iff.1 hm).2⟩

theorem closesRange_eq_true : closesRange before t = true ↔
    t = .closing ∧ nesting (before ++ [.closing]) = 0 := by
  unfold closesRange
  rw [Bool.and_eq_true, beq_iff_eq, beq_iff_eq]
  constructor
  · rintro ⟨rfl, h⟩
    exact ⟨rfl, h⟩
  · rintro ⟨rfl, h⟩
    exact ⟨rfl, h⟩

theorem joinsRange_eq_true :
    joinsRange before t = true ↔ (∃ k, t = .connective k) ∧ nesting before = 0 := by
  cases t <;> simp [joinsRange]

/-- **The interior of a range**: its first parenthesis is closed by its last token and not before. -/
theorem interior?_eq_some_iff :
    interior? r = some ts ↔ r = .opening :: ts ++ [.closing] ∧ nesting r = 0 ∧
      ∀ u v, .opening :: ts = u ++ .closing :: v → nesting (u ++ [.closing]) ≠ 0 := by
  have hcut : interior? r = some ts ↔ ∃ t, cutAt closesRange [] r = some (.opening :: ts, t, []) := by
    unfold interior?
    split
    · next inside t h =>
      rw [h]
      simp
    · next h => simpa using fun t => h ts t
  rw [hcut]
  simp only [cutAt_eq_some_iff, List.nil_append, closesRange_eq_true, Bool.eq_false_iff, ne_eq]
  constructor
  · rintro ⟨_, _, rfl, rfl, ⟨rfl, h0⟩, hm⟩
    exact ⟨rfl, h0, fun u v huv h => hm u _ v huv ⟨rfl, h⟩⟩
  · rintro ⟨rfl, h0, hm⟩
    refine ⟨_, _, rfl, rfl, ⟨rfl, h0⟩, ?_⟩
    rintro u x v huv ⟨rfl, h⟩
    exact hm u v huv h

/-- **The first connective of a range outside parentheses.** -/
theorem cutAtConnective?_eq_some_iff :
    cutAtConnective? r = some (ts, k, us) ↔ r = ts ++ .connective k :: us ∧ nesting ts = 0 ∧
      ∀ u l v, ts = u ++ .connective l :: v → nesting u ≠ 0 := by
  have hcut : cutAtConnective? r = some (ts, k, us) ↔
      cutAt joinsRange [] r = some (ts, .connective k, us) := by
    unfold cutAtConnective?
    split
    · next left l right h =>
      rw [h]
      simp
    · next h => simpa using h ts k us
  rw [hcut]
  simp only [cutAt_eq_some_iff, List.nil_append, joinsRange_eq_true, Bool.eq_false_iff, ne_eq]
  constructor
  · rintro ⟨_, rfl, rfl, ⟨-, h0⟩, hm⟩
    exact ⟨rfl, h0, fun u l v huv h => hm u _ v huv ⟨⟨l, rfl⟩, h⟩⟩
  · rintro ⟨rfl, h0, hm⟩
    refine ⟨_, rfl, rfl, ⟨⟨k, rfl⟩, h0⟩, ?_⟩
    rintro u x v huv ⟨⟨l, rfl⟩, h⟩
    exact hm u l v huv h

/-- The tree of a range that is one clause. -/
def clauseOf? : List Token → Option Expr
  | [.clause text] => (Clause.read text).toOption.map .clause
  | _ => none

/-- The tree of a range of tokens, by splitting it. -/
def Expr.ofRange? (r : List Token) : Option Expr :=
  match _hi : interior? r with
  | some inside => ofRange? inside
  | none =>
    match _hc : cutAtConnective? r with
    | some (left, k, right) =>
      (ofRange? left).bind fun l => (ofRange? right).map fun e => .join k l e
    | none => clauseOf? r
termination_by r.length
decreasing_by
  · rw [(interior?_eq_some_iff.1 _hi).1]
    simp only [List.length_append, List.length_cons, List.length_nil]
    omega
  · rw [(cutAtConnective?_eq_some_iff.1 _hc).1]
    simp only [List.length_append, List.length_cons]
    omega
  · rw [(cutAtConnective?_eq_some_iff.1 _hc).1]
    simp only [List.length_append, List.length_cons]
    omega

theorem Expr.ofRange?_eq (r : List Token) : ofRange? r =
    match interior? r with
    | some inside => ofRange? inside
    | none =>
      match cutAtConnective? r with
      | some (left, k, right) =>
        (ofRange? left).bind fun l => (ofRange? right).map fun e => .join k l e
      | none => clauseOf? r := by
  rw [ofRange?]
  split
  · next hi => rw [hi]
  · next hi =>
    rw [hi]
    dsimp only
    split
    · next hc => rw [hc]
    · next hc => rw [hc]

/-- Parentheses around a range are taken off. -/
theorem Expr.ofRange?_of_interior (h : interior? r = some ts) : ofRange? r = ofRange? ts := by
  rw [ofRange?_eq, h]

/-- Any other range is split at its first connective outside parentheses. -/
theorem Expr.ofRange?_of_connective (h : interior? r = none)
    (hc : cutAtConnective? r = some (ts, k, us)) :
    ofRange? r = (ofRange? ts).bind fun l => (ofRange? us).map fun e => .join k l e := by
  rw [ofRange?_eq, h, hc]

/-- A range without either is a clause or nothing. -/
theorem Expr.ofRange?_of_none (h : interior? r = none) (hc : cutAtConnective? r = none) :
    ofRange? r = clauseOf? r := by
  rw [ofRange?_eq, h, hc]

theorem nesting_nil : nesting [] = 0 := rfl

theorem nesting_closing : nesting [.closing] = -1 := rfl

theorem nesting_append (ts us : List Token) : nesting (ts ++ us) = nesting ts + nesting us := by
  unfold nesting
  rw [List.count_append, List.count_append]
  omega

theorem nesting_opening (ts : List Token) : nesting (.opening :: ts) = 1 + nesting ts :=
  nesting_append [.opening] ts

theorem nesting_connective (k : Connective) (ts : List Token) :
    nesting (.connective k :: ts) = nesting ts := by
  rw [← List.singleton_append, nesting_append]
  exact Int.zero_add _

/-- As many parentheses are closed as opened, and none before it is opened. -/
structure Balanced (ts : List Token) : Prop where
  nesting_eq : nesting ts = 0
  nonneg : ∀ u v, ts = u ++ v → 0 ≤ nesting u

theorem Balanced.parenthesized (h : Balanced ts) : Balanced (.opening :: ts ++ [.closing]) := by
  have h0 : nesting (.opening :: ts ++ [.closing]) = 0 := by
    rw [nesting_append, nesting_opening, h.nesting_eq, nesting_closing]
    rfl
  refine ⟨h0, fun u v huv => ?_⟩
  -- before the last parenthesis at least the first one is open
  rcases List.eq_nil_or_concat' v with rfl | ⟨v, x, rfl⟩
  · rw [List.append_nil] at huv
    exact Int.le_of_eq (huv ▸ h0).symm
  · rw [← List.append_assoc] at huv
    have hts := (List.append_inj' huv rfl).1
    cases u with
    | nil => exact Int.le_of_eq nesting_nil.symm
    | cons y u =>
      rw [List.cons_append, List.cons.injEq] at hts
      have := h.nonneg u v hts.2
      rw [← hts.1, nesting_opening]
      omega

theorem Balanced.join (ht : Balanced ts) (hu : Balanced us) :
    Balanced (ts ++ .connective k :: us) := by
  refine ⟨?_, fun u v huv => ?_⟩
  · rw [nesting_append, nesting_connective, ht.nesting_eq, hu.nesting_eq]
    rfl
  · rcases List.append_eq_append_iff.1 huv with ⟨w, rfl, hw⟩ | ⟨w, rfl, hw⟩
    · rw [nesting_append, ht.nesting_eq, Int.zero_add]
      cases w with
      | nil => exact Int.le_of_eq nesting_nil.symm
      | cons y w =>
        rw [List.cons_append, List.cons.injEq] at hw
        obtain ⟨rfl, rfl⟩ := hw
        rw [nesting_connective]
        exact hu.nonneg w v rfl
    · exact ht.nonneg u w rfl

open EventSieve.Expr

theorem Expr.Spelled.balanced {f : Form} (h : Spelled f ts e) : Balanced ts := by
  induction h with
  | clause h =>
    refine ⟨rfl, fun u v huv => ?_⟩
    rcases List.singleton_eq_append_iff.1 huv with ⟨rfl, rfl⟩ | ⟨rfl, rfl⟩
    · exact Int.le_refl 0
    · exact Int.le_refl 0
  | parenthesized h ih => exact ih.parenthesized
  | single h ih => exact ih
  | join hl hr ihl ihr => exact ihl.join ihr

/-- In an operand every connective stands in parentheses. -/
theorem Expr.Spelled.nesting_ne_zero (h : Spelled .operand ts e) {u v : List Token}
    (hts : ts = u ++ .connective k :: v) : nesting u ≠ 0 := by
  cases h with
  | clause h =>
    rcases List.singleton_eq_append_iff.1 hts with ⟨-, h⟩ | ⟨-, h⟩
    · cases h
    · cases h
  | @parenthesized ts e h =>
    rcases List.eq_nil_or_concat' v with rfl | ⟨v, x, rfl⟩
    · cases (List.append_inj' hts rfl).2
    · have hts' : .opening :: ts ++ [.closing] = u ++ .connective k :: v ++ [x] := by
        rw [hts, List.append_assoc, List.cons_append]
      have hi := (List.append_inj' hts' rfl).1
      cases u with
      | nil => cases hi
      | cons y u =>
        rw [List.cons_append, List.cons.injEq] at hi
        have := h.balanced.nonneg u (.connective k :: v) hi.2
        rw [← hi.1, nesting_opening]
        omega

/-- Parentheses around a level are the outermost ones of their range. -/
theorem Balanced.interior?_eq (h : Balanced ts) :
    interior? (.opening :: ts ++ [.closing]) = some ts := by
  refine interior?_eq_some_iff.2 ⟨rfl, h.parenthesized.nesting_eq, fun u v huv => ?_⟩
  cases u with
  | nil => cases huv
  | cons x u =>
    rw [List.cons_append, List.cons.injEq] at huv
    have := h.nonneg (u ++ [.closing]) v (by rw [huv.2]; simp)
    rw [← huv.1, List.cons_append, nesting_opening]
    omega

/-- The parentheses of an operand do not reach past it. -/
theorem Expr.Spelled.interior?_eq_none (h : Spelled .operand ts e) :
    interior? (ts ++ .connective k :: us) = none := by
  cases hi : interior? (ts ++ .connective k :: us) with
  | none => rfl
  | some inside =>
    exfalso
    obtain ⟨hr, -, hm⟩ := interior?_eq_some_iff.1 hi
    cases h with
    | clause h => cases hr
    | @parenthesized ts e h =>
      -- the parenthesis that closes the operand is not the last token
      rcases List.eq_nil_or_concat' us with rfl | ⟨us, x, rfl⟩
      · cases (List.append_inj' hr rfl).2
      · have hr' : .opening :: ts ++ [.closing] ++ .connective k :: us ++ [x] =
            .opening :: inside ++ [.closing] := by
          rw [← hr]
          simp
        have hin := (List.append_inj' hr' rfl).1
        refine hm (.opening :: ts) (.connective k :: us) (by rw [← hin]; simp) ?_
        exact h.balanced.parenthesized.nesting_eq

/-- The first connective of a level outside parentheses is the one after its first operand. -/
theorem Expr.Spelled.cutAtConnective?_eq (h : Spelled .operand ts e) :
    cutAtConnective? (ts ++ .connective k :: us) = some (ts, k, us) :=
  cutAtConnective?_eq_some_iff.2 ⟨rfl, h.balanced.nesting_eq, fun _ _ _ huv => h.nesting_ne_zero huv⟩

/-- **Splitting finds the trees of the grammar.** -/
theorem Expr.ofRange?_of_spelled {f : Form} (h : Spelled f ts e) : ofRange? ts = some e := by
  induction h with
  | @clause text c hr =>
    rw [ofRange?_of_none rfl rfl, clauseOf?, hr]
    rfl
  | parenthesized h ih => rw [ofRange?_of_interior h.balanced.interior?_eq, ih]
  | single h ih => exact ih
  | join hl hr ihl ihr =>
    rw [ofRange?_of_connective hl.interior?_eq_none hl.cutAtConnective?_eq, ihl, ihr]
    rfl

theorem clauseOf?_eq_some (h : clauseOf? r = some e) : Spelled .operand r e := by
  unfold clauseOf? at h
  split at h
  · next text =>
    cases hr : Clause.read text with
    | error x =>
      rw [hr] at h
      cases h
    | ok c =>
      rw [hr] at h
      cases h
      exact .clause hr
  · cases h

/-- A level without a connective outside parentheses is one operand. -/
theorem Expr.Spelled.toOperand (h : Spelled .level ts e)
    (hk : ∀ u k v, ts = u ++ .connective k :: v → nesting u ≠ 0) : Spelled .operand ts e := by
  cases h with
  | single h => exact h
  | join hl hr => exact absurd hl.balanced.nesting_eq (hk _ _ _ rfl)

/-- **Splitting finds nothing else.** -/
theorem Expr.spelled_of_ofRange? {r : List Token} {e : Expr} (h : ofRange? r = some e) :
    Spelled .level r e := by
  induction hn : r.length using Nat.strong_induction_on generalizing r e with
  | _ n ih =>
    subst hn
    cases hi : interior? r with
    | some inside =>
      rw [ofRange?_of_interior hi] at h
      obtain ⟨rfl, -, -⟩ := interior?_eq_some_iff.1 hi
      have hlt : inside.length < (Token.opening :: inside ++ [Token.closing]).length := by
        simp only [List.length_append, List.length_cons]
        omega
      exact .single (.parenthesized (ih _ hlt h rfl))
    | none =>
      cases hc : cutAtConnective? r with
      | none =>
        rw [ofRange?_of_none hi hc] at h
        exact .single (clauseOf?_eq_some h)
      | some cut =>
        obtain ⟨left, k, right⟩ := cut
        rw [ofRange?_of_connective hi hc, Option.bind_eq_some_iff] at h
        obtain ⟨l, hl, h⟩ := h
        obtain ⟨e', hr, rfl⟩ := Option.map_eq_some_iff.1 h
        obtain ⟨rfl, -, hm⟩ := cutAtConnective?_eq_some_iff.1 hc
        have hlen : (left ++ .connective k :: right).length = left.length + right.length + 1 :=
          List.length_append
        have hleft := ih _ (by omega) hl rfl
        exact .join (hleft.toOperand hm) (ih _ (by omega) hr rfl)

theorem Expr.ofRange?_eq_some_iff {r : List Token} {e : Expr} :
    ofRange? r = some e ↔ Spelled .level r e :=
  ⟨spelled_of_ofRange?, ofRange?_of_spelled⟩

/-- **Reading with a stack of open levels is splitting**, on every text that can be cut into
tokens. So a level's connectives have no precedence: operands in a row, each with its connective,
nest to the right, whatever the connectives are. -/
theorem Expr.read_iff_ofRange? {text : String} (h : Token.scan text.toList = .ok ts) :
    (∀ e, read text = .ok e ↔ ofRange? ts = some e) ∧
    (∀ us vs links last, ts = us ++ vs → LinksSpelled us links → Spelled .operand vs last →
      read text = .ok (chain links last)) := by
  have hread (e : Expr) : read text = .ok e ↔ Spelled .level ts e :=
    read_eq_ok_iff.trans (reads_iff_of_scan h)
  constructor
  · intro e
    rw [hread, ofRange?_eq_some_iff]
  · intro us vs links last hts hlinks hlast
    rw [hread, hts]
    exact hlinks.level (.single hlast)

/-- `&&` before `||` and the other way round: the later connective stands inside the earlier one. -/
theorem Expr.read_iff_ofRange?_mixed :
    let a : Clause := ⟨none, "a", .equal, .ofText "1"⟩
    let b : Clause := ⟨none, "b", .less, .ofText "2"⟩
    let c : Clause := ⟨none, "c", .greater, .ofText "3"⟩
    let ts (k l : Connective) : List Token := [.clause "a==1".toList, .connective k,
      .clause "b<2".toList, .connective l, .clause "c>3".toList]
    Token.scan "a==1 && b<2 || c>3".toList = .ok (ts .and .or) ∧
    (∀ e, read "a==1 && b<2 || c>3" = .ok e ↔ ofRange? (ts .and .or) = some e) ∧
    read "a==1 && b<2 || c>3" = .ok (.join .and (.clause a) (.join .or (.clause b) (.clause c))) ∧
    read "a==1 || b<2 && c>3" = .ok (.join .or (.clause a) (.join .and (.clause b) (.clause c))) := by
  intro a b c ts
  have hand : Token.scan "a==1 && b<2 || c>3".toList = .ok (ts .and .or) := by rfl
  have hor : Token.scan "a==1 || b<2 && c>3".toList = .ok (ts .or .and) := by rfl
  have ha : Clause.read "a==1".toList = .ok a := by rfl
  have hb : Clause.read "b<2".toList = .ok b := by rfl
  have hc : Clause.read "c>3".toList = .ok c := by rfl
  refine ⟨hand, (read_iff_ofRange? hand).1, ?_, ?_⟩
  · exact (read_iff_ofRange? hand).2 _ _ _ _ rfl (.concat (.concat .nil (.clause ha)) (.clause hb))
      (.clause hc)
  · exact (read_iff_ofRange? hor).2 _ _ _ _ rfl (.concat (.concat .nil (.clause ha)) (.clause hb))
      (.clause hc)

end EventSieve
