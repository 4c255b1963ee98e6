import EventSieve.Clause.Reader
import EventSieve.Expr.Basic

/-!
# The grammar of expressions

* `Expr.Spelled`: which trees a list of tokens spells. A level is operands joined by connectives; an
  operand is a clause or a level in parentheses. A level nests to the right, whatever its
  connectives.
* `Expr.Spelled.leaves_eq`: **the leaves of a tree are the clauses of its tokens**, from left to right.
* `LinksSpelled`: a part of a level, in which each operand has its connective; `LinksSpelled.level`
  completes it by the rest of the level.
-/

namespace EventSieve

/-- What a list of tokens can be: one operand, or a whole level of operands and connectives. -/
inductive Form
  | operand
  | level

/-- The trees that a list of tokens spells. -/
inductive Expr.Spelled : Form → List Token → Expr → Prop
  | clause {text : List Char} {c : Clause} : Clause.read text = .ok c →
      Spelled .operand [.clause text] (.clause c)
  | parenthesized {ts : List Token} {e : Expr} : Spelled .level ts e →
      Spelled .operand (.opening :: ts ++ [.closing]) e
  | single {ts : List Token} {e : Expr} : Spelled .operand ts e → Spelled .level ts e
  | join {ts us : List Token} {k : Connective} {left right : Expr} : Spelled .operand ts left →
      Spelled .level us right → Spelled .level (ts ++ .connective k :: us) (.join k left right)

open EventSieve.Expr

variable {f : Form} {ts us : List Token} {e : Expr} {k : Connective}

/-- An operand is also a level. -/
theorem Expr.Spelled.toLevel (h : Spelled f ts e) : Spelled .level ts e := by
  cases f with
  | operand => exact .single h
  | level => exact h

theorem Expr.Spelled.ne_nil (h : Spelled f ts e) : ts ≠ [] := by
  induction h with
  | clause h => exact List.cons_ne_nil _ _
  | parenthesized h ih => exact List.cons_ne_nil _ _
  | single h ih => exact ih
  | join hl hr ihl ihr => exact List.append_ne_nil_of_left_ne_nil ihl _

/-- The text of a token that is a clause. -/
def Token.clauseText? : Token → Option (List Char)
  | .clause text => some text
  | _ => none

/-- The texts of the clauses among tokens, in their order. -/
def clauseTexts (ts : List Token) : List (List Char) := ts.filterMap Token.clauseText?

theorem clauseTexts_append (ts us : List Token) :
    clauseTexts (ts ++ us) = clauseTexts ts ++ clauseTexts us := List.filterMap_append

theorem mem_clauseTexts {text : List Char} (h : text ∈ clauseTexts ts) : .clause text ∈ ts := by
  obtain ⟨t, ht, htext⟩ := List.mem_filterMap.1 h
  cases t with
  | clause w =>
    obtain rfl := Option.some.inj htext
    exact ht
  | connective k => cases htext
  | opening => cases htext
  | closing => cases htext

/-- **The leaves of a tree are the clauses of its tokens**, from left to right. -/
theorem Expr.Spelled.leaves_eq (h : Spelled f ts e) :
    (clauseTexts ts).map Clause.read = e.leaves.map .ok := by
  induction h with
  | @clause text c h => exact congrArg (fun r => [r]) h
  | @parenthesized ts e h ih =>
    have hmarks : clauseTexts (.opening :: ts ++ [.closing]) = clauseTexts ts := by
      rw [clauseTexts_append]
      exact List.append_nil _
    rw [hmarks, ih]
  | single h ih => exact ih
  | @join ts us k left right hl hr ihl ihr =>
    have hmark : clauseTexts (.connective k :: us) = clauseTexts us := rfl
    rw [clauseTexts_append, hmark, List.map_append, ihl, ihr, leaves, List.map_append]

/-- Each leaf of a tree is one of the clauses of its tokens. -/
theorem Expr.Spelled.leaf (h : Spelled f ts e) :
    ∀ c ∈ e.leaves, ∃ text, .clause text ∈ ts ∧ Clause.read text = .ok c := by
  intro c hc
  have hread : .ok c ∈ (clauseTexts ts).map Clause.read := by
    rw [h.leaves_eq]
    exact List.mem_map_of_mem hc
  obtain ⟨text, htext, hr⟩ := List.mem_map.1 hread
  exact ⟨text, mem_clauseTexts htext, hr⟩

/-- The tree of operands, each with the connective after it, and of what follows them. -/
def Expr.chain (links : List (Expr × Connective)) (last : Expr) : Expr :=
  links.foldr (fun link right => .join link.2 link.1 right) last

theorem Expr.chain_concat (links : List (Expr × Connective)) (left right : Expr) (k : Connective) :
    chain (links ++ [(left, k)]) right = chain links (.join k left right) := by
  unfold chain
  rw [List.foldr_append]
  rfl

/-- The tokens of operands, each followed by its connective. -/
inductive LinksSpelled : List Token → List (Expr × Connective) → Prop
  | nil : LinksSpelled [] []
  | concat {ts us : List Token} {links : List (Expr × Connective)} {e : Expr} {k : Connective} :
      LinksSpelled ts links → Spelled .operand us e →
      LinksSpelled (ts ++ us ++ [.connective k]) (links ++ [(e, k)])

/-- **The rest of a level completes it.** -/
theorem LinksSpelled.level {links : List (Expr × Connective)} (h : LinksSpelled ts links)
    (he : Spelled .level us e) : Spelled .level (ts ++ us) (chain links e) := by
  induction h generalizing us e with
  | nil => exact he
  | @concat ts vs links left k h hl ih =>
    have := ih (.join (k := k) hl he)
    rw [chain_concat]
    simpa only [List.append_assoc, List.singleton_append] using this

end EventSieve
