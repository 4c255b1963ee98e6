import EventSieve.Proofs.Expr.LexicalErrors
import EventSieve.Proofs.Expr.Viability
import EventSieve.Proofs.Token.Layout

/-!
# Operands and connectives in pairs

* `Assembly.Paired`: the current level has as many operands as connectives or one more, and every level
  around it equally many. `Paired.move`: **every token that is taken keeps this.**
* `Level.joinPairs`: folding as long as there is both a connective and an operand;
  `Paired.joinPairs_eq`: **a level that can be folded is folded whole.**
* `Safeguard`: what assembling provides for although no text leads to it; `ComesTo` says when tokens do.
* `not_comesTo`: **the tokens of a text come to no safeguard**, unless the text is blank.
* `operands_paired`: these together.
-/

namespace EventSieve

open EventSieve.Expr Assembly Level Text

namespace Level

variable {l : Level} {e : Expr} {parenthesized : Bool}

theorem wantsOperand_eq_true_iff :
    l.wantsOperand = true ↔ l.operands.size = l.connectives.size := beq_iff_eq

theorem wantsOperand_eq_false_iff :
    l.wantsOperand = false ↔ l.operands.size ≠ l.connectives.size := beq_eq_false_iff_ne

@[simp] theorem size_operands_addOperand (l : Level) (e : Expr) :
    (l.addOperand e).operands.size = l.operands.size + 1 := Array.size_push _

@[simp] theorem connectives_addOperand (l : Level) (e : Expr) :
    (l.addOperand e).connectives = l.connectives := rfl

@[simp] theorem operands_addConnective (l : Level) (k : Connective) :
    (l.addConnective k).operands = l.operands := rfl

@[simp] theorem size_connectives_addConnective (l : Level) (k : Connective) :
    (l.addConnective k).connectives.size = l.connectives.size + 1 := Array.size_push _

/-- Joins connectives and operands, last first, to the tree after them as long as there is one of each;
the tree, and the connectives and operands that are left over. -/
def joinPairs (right : Expr) : List Connective → List Expr → Expr × List Connective × List Expr
  | k :: ks, left :: before => joinPairs (.join k left right) ks before
  | ks, before => (right, ks, before)

/-- What is left over is what one kind has more than the other. -/
theorem joinPairs_eq (right : Expr) (ks : List Connective) (before : List Expr) :
    joinPairs right ks before =
      (joinBefore right (ks.zip before), ks.drop before.length, before.drop ks.length) := by
  fun_induction joinPairs right ks before with
  | case1 right k ks left before ih => exact ih
  | case2 right ks before h =>
    cases ks with
    | nil => simp [joinBefore]
    | cons k ks =>
      cases before with
      | nil => simp [joinBefore]
      | cons left before => exact absurd rfl (h k ks left before rfl)

/-- **Folding a level joins its pairs** to its last operand. -/
theorem fold_eq_ok_iff : l.fold parenthesized = .ok e ↔
    l.wantsOperand = false ∧ ∃ last before, l.operands.toList.reverse = last :: before ∧
      (joinPairs last l.connectives.toList.reverse before).1 = e := by
  unfold fold
  cases hw : l.wantsOperand with
  | true => cases l.connectives.back? <;> simp
  | false =>
    cases l.operands.toList.reverse with
    | nil => simp
    | cons last before => simp [joinPairs_eq]

end Level

namespace Assembly

variable {a b : Assembly} {t : Token} {ts us : List Token} {e : Expr} {parenthesized : Bool}

/-- The current level has as many operands as connectives or one more; every level around it has as
many operands as connectives, and waits for the operand that is inside it. -/
structure Paired (a : Assembly) : Prop where
  current : a.current.operands.size = a.current.connectives.size ∨
    a.current.operands.size = a.current.connectives.size + 1
  enclosing : ∀ l ∈ a.enclosing, l.operands.size = l.connectives.size

theorem paired_start : Paired start := ⟨.inl rfl, fun _ h => absurd h List.not_mem_nil⟩

/-- **Every token that is taken keeps operands and connectives in pairs.** -/
theorem Paired.move (h : Paired a) (hm : Move a t b) : Paired b := by
  cases hm with
  | @clause l ls text c hw hr =>
    have hsize := wantsOperand_eq_true_iff.1 hw
    exact ⟨.inr (by simp [hsize]), h.enclosing⟩
  | opening hw =>
    exact ⟨.inl rfl, List.forall_mem_cons.2 ⟨wantsOperand_eq_true_iff.1 hw, h.enclosing⟩⟩
  | @closing l outer ls e hf =>
    obtain ⟨houter, hls⟩ := List.forall_mem_cons.1 h.enclosing
    exact ⟨.inr (by simp [houter]), hls⟩
  | connective hw =>
    have hsize := h.current.resolve_left (wantsOperand_eq_false_iff.1 hw)
    exact ⟨.inl (by simpa using hsize), h.enclosing⟩

theorem paired_run (h : start.run ts = .ok a) : Paired a :=
  foldlM_invariant (P := fun _ => Paired) paired_start
    (fun _ _ _ _ h hs => h.move (step_eq_ok_iff.1 hs)) h

/-- A level that waits for no operand has one more than it has connectives. -/
theorem Paired.size_eq (h : Paired a) (hw : a.current.wantsOperand = false) :
    a.current.operands.size = a.current.connectives.size + 1 :=
  h.current.resolve_left (wantsOperand_eq_false_iff.1 hw)

/-- **A level that can be folded is folded whole**: no connective and no operand is left over. -/
theorem Paired.joinPairs_eq (h : Paired a) (hf : a.current.fold parenthesized = .ok e) :
    ∃ last before, a.current.operands.toList.reverse = last :: before ∧
      joinPairs last a.current.connectives.toList.reverse before = (e, [], []) := by
  obtain ⟨hw, last, before, hops, rfl⟩ := fold_eq_ok_iff.1 hf
  have hsize := h.size_eq hw
  have hlength := congrArg List.length hops
  simp only [List.length_reverse, Array.length_toList, List.length_cons] at hlength
  refine ⟨last, before, hops, ?_⟩
  rw [Level.joinPairs_eq, List.drop_eq_nil_of_le, List.drop_eq_nil_of_le]
  all_goals
    simp only [List.length_reverse, Array.length_toList]
    omega

/-- Results that assembling a tree provides for although no text leads to them. -/
inductive Safeguard
  /-- A parenthesis is closed while none is open. -/
  | unopened
  /-- The tokens end while a parenthesis is open. -/
  | unclosed
  /-- A whole expression has neither operands nor connectives. -/
  | nothing
  /-- A level that waits for no operand has none. -/
  | operandless
  /-- A clause is blank. -/
  | blankClause

/-- The error that a safeguard raises. -/
def Safeguard.error : Safeguard → ExprError
  | unopened => .unbalanced 0
  | unclosed => .unbalanced 0
  | nothing => .noOperand
  | operandless => .emptyParentheses
  | blankClause => .blank

/-- The levels that are folded while the tokens `ts` are assembled: at a closing parenthesis, and at the
end the one that is no level in parentheses. -/
inductive Folds : List Token → Level → Bool → Prop
  | closing {us vs : List Token} {l outer : Level} {ls : List Level} :
      start.run us = .ok ⟨l, outer :: ls⟩ → Folds (us ++ .closing :: vs) l true
  | ending {ts : List Token} {l : Level} : start.run ts = .ok ⟨l, []⟩ → Folds ts l false

/-- Assembling the tokens `ts` comes to a safeguard. -/
inductive ComesTo : List Token → Safeguard → Prop
  | unopened {us vs : List Token} {l : Level} : start.run us = .ok ⟨l, []⟩ →
      ComesTo (us ++ .closing :: vs) .unopened
  | unclosed {ts : List Token} {a : Assembly} : start.run ts = .ok a → a.enclosing ≠ [] →
      ComesTo ts .unclosed
  | nothing {ts : List Token} {l : Level} : Folds ts l false → l.wantsOperand = true →
      l.connectives.back? = none → ComesTo ts .nothing
  | operandless {ts : List Token} {l : Level} {parenthesized : Bool} : Folds ts l parenthesized →
      l.wantsOperand = false → l.operands.toList.reverse = [] → ComesTo ts .operandless
  | blankClause {us vs : List Token} {a : Assembly} {text : List Char} : start.run us = .ok a →
      a.current.wantsOperand = true → trim text = [] →
      ComesTo (us ++ .clause text :: vs) .blankClause

variable {l : Level} {g : Safeguard} {x : ExprError}

/-- A level that is folded and cannot be is the error. -/
theorem Folds.ofTokens_eq (h : Folds ts l parenthesized) (hx : l.Unfoldable parenthesized x) :
    ofTokens ts = .error x := by
  have hfold := fold_eq_error_iff.2 hx
  cases h with
  | closing hrun => exact ofTokens_of_refusal hrun (.unfinished hfold) _
  | ending hrun =>
    rw [ofTokens_eq_result hrun]
    exact hfold

/-- **A safeguard that tokens come to is their error.** -/
theorem ComesTo.ofTokens_eq (h : ComesTo ts g) : ofTokens ts = .error g.error := by
  cases h with
  | unopened hrun => exact ofTokens_of_refusal hrun .unopened _
  | unclosed hrun hne => rw [ofTokens_eq_result hrun, result_of_open hne]; rfl
  | nothing hf hw hk => exact hf.ofTokens_eq (.nothing hw hk)
  | operandless hf hw ho => exact hf.ofTokens_eq (.operandless hw ho)
  | @blankClause us vs a text hrun hw hb =>
    have hread : Clause.read text = .error .blank := by
      unfold Clause.read
      rw [hb]
      rfl
    exact ofTokens_of_refusal hrun (.unread hw hread) _

/-- The levels that are folded have their operands and connectives in pairs. -/
theorem Folds.size_eq (h : Folds ts l parenthesized) (hw : l.wantsOperand = false) :
    l.operands.size = l.connectives.size + 1 := by
  cases h with
  | closing hrun => exact (paired_run hrun).size_eq hw
  | ending hrun => exact (paired_run hrun).size_eq hw

/-- **A level that waits for no operand has one**, whatever the tokens are. -/
theorem not_comesTo_operandless (ts : List Token) : ¬ComesTo ts .operandless := by
  intro h
  cases h with
  | operandless hf hw ho =>
    have hsize := hf.size_eq hw
    have hlength := congrArg List.length ho
    rw [List.length_reverse, Array.length_toList, hsize, List.length_nil] at hlength
    exact absurd hlength (Nat.succ_ne_zero _)

/-- A text without tokens is blank. -/
theorem blank_of_scan_nil {text : List Char} (h : Token.scan text = .ok []) : Blank text := by
  obtain ⟨hcut, -⟩ := scan_iff_cutInto.1 h
  cases hcut with
  | nil hgap => exact hgap

/-- **The tokens of a text that is not blank come to no safeguard.** -/
theorem not_comesTo {text : List Char} (hb : ¬Blank text) (hts : Token.scan text = .ok ts) :
    ¬ComesTo ts g := by
  intro h
  have herror := h.ofTokens_eq
  obtain ⟨hcut, hbalanced⟩ := scan_iff_cutInto.1 hts
  cases h with
  | unopened hrun => exact ofTokens_error_not_lexical hbalanced herror trivial
  | unclosed hrun hne => exact ofTokens_error_not_lexical hbalanced herror trivial
  | nothing hf hw hk =>
    cases hf with
    | ending hrun =>
      -- the only tokens that leave nothing behind are none
      have hopen := nesting_run hrun
      rcases (ofTokens_of_unfinished hrun herror).2 (by simp [hopen]) with ⟨rfl, -⟩ | ⟨us, k, -, hx⟩
      · exact hb (blank_of_scan_nil hts)
      · cases hx
  | operandless hf hw ho => exact not_comesTo_operandless _ (.operandless hf hw ho)
  | @blankClause us vs a w hrun hw htrim =>
    have hclause : IsClauseText w := hcut.isClauseText_of_mem (List.mem_append_right _ List.mem_cons_self)
    rw [trim_eq_self hclause.stopsAt hclause.stopsAt_reverse] at htrim
    exact hclause.ne_nil htrim

/-- **Two errors have no other cause** than a safeguard: that there is no operand at all, and that a text
is blank. -/
theorem comesTo_of_ofTokens (h : ofTokens ts = .error x) :
    (x = .noOperand → ComesTo ts .nothing) ∧ (x = .blank → ComesTo ts .blankClause) := by
  rcases ofTokens_eq_error_iff.1 h with ⟨us, t, vs, a, rfl, hrun, hrefused⟩ | ⟨⟨l, ls⟩, hrun, hresult⟩
  · cases hrefused with
    | clause hw => exact ⟨nofun, nofun⟩
    | unread hw hr =>
      rcases Clause.read_error hr with ⟨hb, rfl⟩ | hx
      · exact ⟨nofun, fun _ => .blankClause hrun hw hb⟩
      · exact ⟨fun h => (h ▸ hx).elim, fun h => (h ▸ hx).elim⟩
    | opening hw => exact ⟨nofun, nofun⟩
    | unopened => exact ⟨nofun, nofun⟩
    | unfinished hf =>
      cases fold_eq_error_iff.1 hf with
      | noRightOperand hw hk => exact ⟨nofun, nofun⟩
      | nothing hw hk => exact ⟨nofun, nofun⟩
      | operandless hw ho => exact ⟨nofun, nofun⟩
    | connective hw => exact ⟨nofun, nofun⟩
  · cases ls with
    | nil =>
      cases fold_eq_error_iff.1 hresult with
      | noRightOperand hw hk => exact ⟨nofun, nofun⟩
      | nothing hw hk => exact ⟨fun _ => .nothing (.ending hrun) hw hk, nofun⟩
      | operandless hw ho => exact ⟨nofun, nofun⟩
    | cons outer ls =>
      cases hresult
      exact ⟨nofun, nofun⟩

/-- What keeps a text from being cut into tokens is a parenthesis or a quote. -/
theorem scan_error_lexical {text : List Char} (h : Token.scan text = .error x) : x.IsLexical := by
  have hscanned := scanned_scan text
  rw [h] at hscanned
  cases hscanned with
  | unmatched hi => trivial
  | openQuote hno hq hp => trivial
  | opened hno hq hlt => trivial

/-- A text that is not blank is refused neither as blank nor for having no operand at all. -/
theorem read_ne_error {text : String} (hb : ¬Blank text.toList) :
    Expr.read text ≠ .error .noOperand ∧ Expr.read text ≠ .error .blank := by
  have hread : Expr.read text = Token.scan text.toList >>= ofTokens := by
    unfold Expr.read readChars
    rw [if_neg fun h => hb (trim_eq_nil_iff.1 (List.isEmpty_iff.1 h))]
  rw [hread]
  constructor
  · intro h
    rcases bind_eq_error.1 h with hx | ⟨ts, hts, hx⟩
    · exact scan_error_lexical hx
    · exact not_comesTo hb hts ((comesTo_of_ofTokens hx).1 rfl)
  · intro h
    rcases bind_eq_error.1 h with hx | ⟨ts, hts, hx⟩
    · exact scan_error_lexical hx
    · exact not_comesTo hb hts ((comesTo_of_ofTokens hx).2 rfl)

/-- **Operands and connectives stay in pairs, and no text leads to a safeguard.** After any tokens that are
taken, the current level has as many operands as connectives or one more, and the levels around it
equally many. So when a level is folded its operands and connectives run out together, and none is
left over. A safeguard is the error of the tokens that come to it; but the tokens of a text that is not
blank come to none, and such a text is refused neither as blank nor for having no operand at all. -/
theorem operands_paired :
    (∀ ts a, start.run ts = .ok a → Paired a) ∧
    (∀ ts a, start.run ts = .ok a → ∀ parenthesized e, a.current.fold parenthesized = .ok e →
      ∃ last before, a.current.operands.toList.reverse = last :: before ∧
        joinPairs last a.current.connectives.toList.reverse before = (e, [], [])) ∧
    (∀ ts g, ComesTo ts g → ofTokens ts = .error g.error) ∧
    (∀ text : String, ¬Blank text.toList →
      (∀ ts, Token.scan text.toList = .ok ts → ∀ g, ¬ComesTo ts g) ∧
        Expr.read text ≠ .error .noOperand ∧ Expr.read text ≠ .error .blank) := by
  refine ⟨fun _ _ h => paired_run h, fun _ _ h _ _ hf => (paired_run h).joinPairs_eq hf,
    fun _ _ h => h.ofTokens_eq, fun text hb => ⟨fun _ hts _ => not_comesTo hb hts, read_ne_error hb⟩⟩

/-- A level inside another one, before its parenthesis is closed; and a parenthesis without a text around
it, which comes to a safeguard. -/
theorem operands_paired_nested :
    let a : Clause := ⟨none, "a", .equal, .ofText "1"⟩
    let b : Clause := ⟨none, "b", .less, .ofText "2"⟩
    let inner : Assembly := ⟨⟨#[.clause b, .clause a], #[.or]⟩, [⟨#[.clause a], #[.and]⟩]⟩
    let ts : List Token := [.clause "a==1".toList, .connective .and, .opening, .clause "b<2".toList,
      .connective .or, .clause "a==1".toList]
    start.run ts = .ok inner ∧ Paired inner ∧
    inner.current.fold true = .ok (.join .or (.clause b) (.clause a)) ∧
    (∃ last before, inner.current.operands.toList.reverse = last :: before ∧
      joinPairs last [.or] before = (.join .or (.clause b) (.clause a), [], [])) ∧
    ¬Blank "a==1 && (b<2 || a==1)".toList ∧
    Token.scan "a==1 && (b<2 || a==1)".toList = .ok (ts ++ [.closing]) ∧
    (∀ g, ¬ComesTo (ts ++ [.closing]) g) ∧
    ComesTo [.closing] .unopened ∧ ofTokens [.closing] = .error (.unbalanced 0) := by
  intro a b inner ts
  obtain ⟨hpaired, hfolded, herror, htext⟩ := operands_paired
  have hrun : start.run ts = .ok inner := by rfl
  have hfold : inner.current.fold true = .ok (.join .or (.clause b) (.clause a)) := by rfl
  have hblank : ¬Blank "a==1 && (b<2 || a==1)".toList := by
    intro h
    exact absurd (h 'a' (by decide)) (by decide)
  have hscan : Token.scan "a==1 && (b<2 || a==1)".toList = .ok (ts ++ [.closing]) := by rfl
  have hunopened : ComesTo [.closing] .unopened := @ComesTo.unopened [] [] _ rfl
  exact ⟨hrun, hpaired ts inner hrun, hfold, hfolded ts inner hrun true _ hfold, hblank, hscan,
    (htext _ hblank).1 _ hscan, hunopened, herror _ _ hunopened⟩

end Assembly

end EventSieve
