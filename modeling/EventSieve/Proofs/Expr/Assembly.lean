import EventSieve.Expr.Reader
import EventSieve.Proofs.Expr.Grammar
import EventSieve.Proofs.Fallible

/-!
# What the assembly of a tree computes

* `Level.ofLinks`: the levels that wait for an operand. Every level that an assembly reaches is one
  of these or one of these with one more operand.
* `Assembly.Move`, `Assembly.Refusal`: the ways in which an assembly goes on by one token, and those
  in which it refuses one; `step_eq_ok_iff`, `step_eq_error_iff`.
* `AssemblySpelled`: the open levels are the unfinished parts of the tokens passed so far.
  `AssemblySpelled.move` keeps it.
* `ofTokens_eq_ok_iff`: **an assembly accepts the tokens of the grammar, with its tree.**
-/

namespace EventSieve

open EventSieve.Expr

namespace Level

/-- The level of operands, each followed by its connective. -/
def ofLinks (links : List (Expr × Connective)) : Level :=
  ⟨(links.map Prod.fst).toArray, (links.map Prod.snd).toArray⟩

variable (links : List (Expr × Connective)) (e : Expr) (k : Connective) (parenthesized : Bool)

theorem wantsOperand_ofLinks : (ofLinks links).wantsOperand = true := by
  simp [ofLinks, wantsOperand]

theorem wantsOperand_addOperand : ((ofLinks links).addOperand e).wantsOperand = false := by
  simp [ofLinks, wantsOperand, addOperand]

theorem addConnective_addOperand :
    ((ofLinks links).addOperand e).addConnective k = ofLinks (links ++ [(e, k)]) := by
  simp [ofLinks, addOperand, addConnective]

/-- Folding a level that waits for an operand fails, by its last connective if it has one. -/
theorem fold_ofLinks :
    (ofLinks links).fold parenthesized = .error
      (match links.getLast? with
        | some link => .noRightOperand link.2
        | none => if parenthesized then .emptyParentheses else .noOperand) := by
  have hback : (ofLinks links).connectives.back? = links.getLast?.map Prod.snd := by
    simp [ofLinks]
  unfold fold
  rw [if_pos (wantsOperand_ofLinks links), hback]
  cases links.getLast? with
  | none => rfl
  | some link => rfl

/-- **Folding a complete level nests it to the right.** -/
theorem fold_addOperand :
    ((ofLinks links).addOperand e).fold parenthesized = .ok (chain links e) := by
  have hops : ((ofLinks links).addOperand e).operands.toList.reverse =
      e :: (links.map Prod.fst).reverse := by simp [ofLinks, addOperand]
  have hks : ((ofLinks links).addOperand e).connectives.toList = links.map Prod.snd := rfl
  have hzip : (links.map Prod.snd).reverse.zip (links.map Prod.fst).reverse =
      (links.map Prod.swap).reverse := by
    rw [← List.map_reverse, ← List.map_reverse, ← List.map_reverse, List.zip_map']
    rfl
  unfold fold
  rw [if_neg (by simp [wantsOperand_addOperand]), hops, hks]
  simp only [hzip, joinBefore, List.foldl_reverse, List.foldr_map, Except.ok.injEq]
  rfl

end Level

namespace Assembly

open Level

/-- The ways in which an assembly goes on by one token. -/
inductive Move : Assembly → Token → Assembly → Prop
  | clause {l : Level} {ls : List Level} {text : List Char} {c : Clause} :
      l.wantsOperand = true → Clause.read text = .ok c →
      Move ⟨l, ls⟩ (.clause text) ⟨l.addOperand (.clause c), ls⟩
  | opening {l : Level} {ls : List Level} : l.wantsOperand = true →
      Move ⟨l, ls⟩ .opening ⟨.empty, l :: ls⟩
  | closing {l outer : Level} {ls : List Level} {e : Expr} : l.fold true = .ok e →
      Move ⟨l, outer :: ls⟩ .closing ⟨outer.addOperand e, ls⟩
  | connective {l : Level} {ls : List Level} {k : Connective} : l.wantsOperand = false →
      Move ⟨l, ls⟩ (.connective k) ⟨l.addConnective k, ls⟩

/-- The ways in which an assembly refuses a token. -/
inductive Refusal : Assembly → Token → ExprError → Prop
  | clause {l : Level} {ls : List Level} {text : List Char} : l.wantsOperand = false →
      Refusal ⟨l, ls⟩ (.clause text) (.noConnective (.clause text))
  | unread {l : Level} {ls : List Level} {text : List Char} {x : ExprError} :
      l.wantsOperand = true → Clause.read text = .error x → Refusal ⟨l, ls⟩ (.clause text) x
  | opening {l : Level} {ls : List Level} : l.wantsOperand = false →
      Refusal ⟨l, ls⟩ .opening (.noConnective .opening)
  | unopened {l : Level} : Refusal ⟨l, []⟩ .closing (.unbalanced 0)
  | unfinished {l outer : Level} {ls : List Level} {x : ExprError} : l.fold true = .error x →
      Refusal ⟨l, outer :: ls⟩ .closing x
  | connective {l : Level} {ls : List Level} {k : Connective} : l.wantsOperand = true →
      Refusal ⟨l, ls⟩ (.connective k) (.noLeftOperand k)

section Step

variable {a b : Assembly} {t : Token} {x : ExprError}

/-- **A token is taken or refused.** -/
theorem move_or_refusal (a : Assembly) (t : Token) : (∃ b, Move a t b) ∨ ∃ x, Refusal a t x := by
  obtain ⟨l, ls⟩ := a
  cases t with
  | clause text =>
    cases hw : l.wantsOperand with
    | false => exact .inr ⟨_, .clause hw⟩
    | true =>
      cases hr : Clause.read text with
      | ok c => exact .inl ⟨_, .clause hw hr⟩
      | error x => exact .inr ⟨_, .unread hw hr⟩
  | opening =>
    cases hw : l.wantsOperand with
    | false => exact .inr ⟨_, .opening hw⟩
    | true => exact .inl ⟨_, .opening hw⟩
  | closing =>
    cases ls with
    | nil => exact .inr ⟨_, .unopened⟩
    | cons outer ls =>
      cases hf : l.fold true with
      | ok e => exact .inl ⟨_, .closing hf⟩
      | error x => exact .inr ⟨_, .unfinished hf⟩
  | connective k =>
    cases hw : l.wantsOperand with
    | false => exact .inl ⟨_, .connective hw⟩
    | true => exact .inr ⟨_, .connective hw⟩

theorem Move.step_eq (h : Move a t b) : a.step t = .ok b := by
  cases h with
  | clause hw hr => simp [step, hw, hr]
  | opening hw => simp [step, hw]
  | closing hf => simp [step, hf]
  | connective hw => simp [step, hw]

theorem Refusal.step_eq (h : Refusal a t x) : a.step t = .error x := by
  cases h with
  | clause hw => simp [step, hw]
  | unread hw hr => simp [step, hw, hr]
  | opening hw => simp [step, hw]
  | unopened => rfl
  | unfinished hf => simp [step, hf]
  | connective hw => simp [step, hw]

/-- **A step that does not fail is one of the moves.** -/
theorem step_eq_ok_iff : a.step t = .ok b ↔ Move a t b := by
  refine ⟨fun h => ?_, Move.step_eq⟩
  rcases move_or_refusal a t with ⟨c, hm⟩ | ⟨x, hr⟩
  · rw [hm.step_eq] at h
    cases h
    exact hm
  · rw [hr.step_eq] at h
    cases h

/-- **A step that fails is one of the refusals.** -/
theorem step_eq_error_iff : a.step t = .error x ↔ Refusal a t x := by
  refine ⟨fun h => ?_, Refusal.step_eq⟩
  rcases move_or_refusal a t with ⟨b, hm⟩ | ⟨y, hr⟩
  · rw [hm.step_eq] at h
    cases h
  · rw [hr.step_eq] at h
    cases h
    exact hr

end Step

/-- An assembly continued over a list of tokens. -/
def run (a : Assembly) (ts : List Token) : Except ExprError Assembly := ts.foldlM step a

variable {a b : Assembly} {t : Token} {ts us : List Token} {e : Expr}

theorem run_nil (a : Assembly) : a.run [] = .ok a := rfl

theorem run_cons_eq_ok : a.run (t :: ts) = .ok b ↔ ∃ m, Move a t m ∧ m.run ts = .ok b := by
  unfold run
  simp only [foldlM_cons_eq_ok, step_eq_ok_iff]

theorem run_append_eq_ok : a.run (ts ++ us) = .ok b ↔ ∃ m, a.run ts = .ok m ∧ m.run us = .ok b :=
  foldlM_append_eq_ok

theorem run_concat_eq_ok : a.run (ts ++ [t]) = .ok b ↔ ∃ m, a.run ts = .ok m ∧ Move m t b := by
  rw [run_append_eq_ok]
  unfold run
  simp only [foldlM_singleton_eq_ok, step_eq_ok_iff]

/-- What an assembly makes of tokens wherever it wants an operand: of an operand, one more operand;
of a level, operands and connectives that nest to its tree. -/
def Builds : Form → List Token → Expr → Prop
  | .operand, ts, e => ∀ links ls, run ⟨ofLinks links, ls⟩ ts = .ok ⟨(ofLinks links).addOperand e, ls⟩
  | .level, ts, e => ∀ links ls, ∃ more last,
      run ⟨ofLinks links, ls⟩ ts = .ok ⟨(ofLinks (links ++ more)).addOperand last, ls⟩ ∧
        chain more last = e

/-- **The tokens of the grammar build their tree.** -/
theorem builds_of_spelled {f : Form} (h : Spelled f ts e) : Builds f ts e := by
  induction h with
  | clause hr =>
    intro links ls
    exact run_cons_eq_ok.2 ⟨_, .clause (wantsOperand_ofLinks links) hr, run_nil _⟩
  | parenthesized h ih =>
    intro links ls
    obtain ⟨more, last, hrun, rfl⟩ := ih [] (ofLinks links :: ls)
    refine run_concat_eq_ok.2 ⟨_, run_cons_eq_ok.2 ⟨_, .opening (wantsOperand_ofLinks links), hrun⟩, ?_⟩
    exact .closing (fold_addOperand more last true)
  | single h ih =>
    intro links ls
    exact ⟨[], _, by rw [List.append_nil]; exact ih links ls, rfl⟩
  | @join ts us k left right hl hr ihl ihr =>
    intro links ls
    obtain ⟨more, last, hrun, rfl⟩ := ihr (links ++ [(left, k)]) ls
    refine ⟨(left, k) :: more, last, ?_, rfl⟩
    rw [List.append_cons links]
    refine run_append_eq_ok.2 ⟨_, ihl links ls, run_cons_eq_ok.2 ⟨_, ?_, hrun⟩⟩
    rw [← addConnective_addOperand]
    exact .connective (wantsOperand_addOperand links left)

/-- A level whose tokens so far are `ts`: complete, or waiting for an operand. -/
inductive LevelSpelled : List Token → Level → Prop
  | waiting {ts : List Token} {links : List (Expr × Connective)} :
      LinksSpelled ts links → LevelSpelled ts (ofLinks links)
  | complete {ts us : List Token} {links : List (Expr × Connective)} {e : Expr} :
      LinksSpelled ts links → Spelled .operand us e →
      LevelSpelled (ts ++ us) ((ofLinks links).addOperand e)

/-- The levels around the current one, innermost first, whose tokens so far are `ts`; each ends with
the parenthesis that opened the level inside it. -/
inductive EnclosingSpelled : List Token → List Level → Prop
  | nil : EnclosingSpelled [] []
  | cons {ts us : List Token} {ls : List Level} {links : List (Expr × Connective)} :
      EnclosingSpelled ts ls → LinksSpelled us links →
      EnclosingSpelled (ts ++ us ++ [.opening]) (ofLinks links :: ls)

/-- The state after the tokens `ts`: the open levels are their unfinished parts. -/
structure AssemblySpelled (ts : List Token) (a : Assembly) : Prop where
  split : ∃ outer inner, ts = outer ++ inner ∧ EnclosingSpelled outer a.enclosing ∧
    LevelSpelled inner a.current

theorem assemblySpelled_start : AssemblySpelled [] start :=
  ⟨[], [], rfl, .nil, .waiting .nil⟩

/-- A level that wants an operand is made of links. -/
theorem LevelSpelled.links {l : Level} (h : LevelSpelled ts l) (hw : l.wantsOperand = true) :
    ∃ links, LinksSpelled ts links ∧ l = ofLinks links := by
  cases h with
  | waiting hl => exact ⟨_, hl, rfl⟩
  | complete hl he =>
    rw [wantsOperand_addOperand] at hw
    exact absurd hw Bool.false_ne_true

/-- A level that wants a connective is made of links and one more operand. -/
theorem LevelSpelled.operand {l : Level} (h : LevelSpelled ts l) (hw : l.wantsOperand = false) :
    ∃ us vs links e, ts = us ++ vs ∧ LinksSpelled us links ∧ Spelled .operand vs e ∧
      l = (ofLinks links).addOperand e := by
  cases h with
  | waiting hl =>
    rw [wantsOperand_ofLinks] at hw
    exact absurd hw.symm Bool.false_ne_true
  | complete hl he => exact ⟨_, _, _, _, rfl, hl, he, rfl⟩

/-- A level that can be folded spells the tree it folds to. -/
theorem LevelSpelled.fold {l : Level} {parenthesized : Bool} (h : LevelSpelled ts l)
    (hf : l.fold parenthesized = .ok e) : Spelled .level ts e := by
  cases h with
  | waiting hl =>
    rw [fold_ofLinks] at hf
    cases hf
  | complete hl he =>
    rw [fold_addOperand] at hf
    cases hf
    exact hl.level (.single he)

/-- **Every move keeps the open levels the unfinished parts of the tokens passed.** -/
theorem AssemblySpelled.move (h : AssemblySpelled ts a) (hm : Move a t b) :
    AssemblySpelled (ts ++ [t]) b := by
  obtain ⟨outer, inner, rfl, ho, hi⟩ := h.split
  cases hm with
  | clause hw hr =>
    obtain ⟨links, hl, rfl⟩ := hi.links hw
    exact ⟨outer, inner ++ [_], List.append_assoc _ _ _, ho, .complete hl (.clause hr)⟩
  | opening hw =>
    obtain ⟨links, hl, rfl⟩ := hi.links hw
    exact ⟨_, [], (List.append_nil _).symm, .cons ho hl, .waiting .nil⟩
  | closing hf =>
    have he := hi.fold hf
    cases ho with
    | @cons ts us ls links ho hl =>
      refine ⟨ts, us ++ (.opening :: inner ++ [.closing]), by simp, ho, ?_⟩
      exact .complete hl (.parenthesized he)
  | connective hw =>
    obtain ⟨us, vs, links, e, rfl, hl, he, rfl⟩ := hi.operand hw
    rw [addConnective_addOperand]
    exact ⟨outer, _, List.append_assoc _ _ _, ho, .waiting (.concat hl he)⟩

theorem assemblySpelled_run (h : start.run ts = .ok a) : AssemblySpelled ts a :=
  foldlM_invariant (P := AssemblySpelled) assemblySpelled_start
    (fun _ _ _ _ hs hstep => hs.move (step_eq_ok_iff.1 hstep)) h

end Assembly

open Assembly

/-- **An assembly accepts the tokens of the grammar, with their tree, and no others.** -/
theorem Expr.ofTokens_eq_ok_iff {ts : List Token} {e : Expr} :
    Expr.ofTokens ts = .ok e ↔ Spelled .level ts e := by
  have hrun : Expr.ofTokens ts = .ok e ↔ ∃ a, start.run ts = .ok a ∧ a.result = .ok e := bind_eq_ok
  rw [hrun]
  constructor
  · rintro ⟨⟨l, ls⟩, ha, he⟩
    obtain ⟨outer, inner, rfl, ho, hi⟩ := (assemblySpelled_run ha).split
    cases ho with
    | nil => exact hi.fold he
    | cons ho hl => cases he
  · intro h
    obtain ⟨more, last, ha, rfl⟩ := builds_of_spelled h [] []
    exact ⟨_, ha, Level.fold_addOperand more last false⟩

end EventSieve
