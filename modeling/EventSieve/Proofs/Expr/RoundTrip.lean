import EventSieve.Proofs.Clause.WellFormed
import EventSieve.Proofs.Expr.Equality
import EventSieve.Proofs.Expr.Reader
import EventSieve.Proofs.Expr.Rendering

/-!
# Reading what was rendered

* `wellFormed_of_read`: the trees that are read have well-formed clauses.
* `reads_render`: the rendering of a tree with well-formed clauses is one operand that spells the tree.
* `read_render_iff`: **the trees that are read back from their renderings, and those that are read
  at all, are the trees with well-formed clauses.**
-/

namespace EventSieve.Expr

variable {text : String} {e : Expr}

/-- **Only well-formed clauses are read.** -/
theorem wellFormed_of_read (h : read text = .ok e) : ∀ c ∈ e.leaves, c.WellFormed := by
  obtain ⟨ts, hts, hs⟩ := read_eq_ok_iff.1 h
  intro c hc
  obtain ⟨w, hw, hr⟩ := hs.leaf c hc
  obtain ⟨hu, hq⟩ := unmarked_of_scan hts hw
  exact (Clause.read_eq_ok_iff.1 hr).wellFormed hu.trim (quotesClosed_trim.2 hq)

/-- The rendering of a tree is one operand: a clause is one token, and a connective stands with its
operands in parentheses. -/
theorem reads_render (h : ∀ c ∈ e.leaves, c.WellFormed) : Reads .operand e.render.toList e := by
  induction e with
  | clause c =>
    have hc := h c (List.mem_singleton_self c)
    rw [render_clause]
    exact ⟨_, hc.scan_render, .clause hc.read_render⟩
  | join k left right ihl ihr =>
    have hl := ihl fun c hc => h c (List.mem_append_left _ hc)
    have hr := ihr fun c hc => h c (List.mem_append_right _ hc)
    rw [toList_render_join]
    exact (hl.join k hr.toLevel).parenthesized

theorem read_render (h : ∀ c ∈ e.leaves, c.WellFormed) : read e.render = .ok e :=
  read_eq_ok_iff.2 (reads_render h).toLevel

/-- **The round trip.** A tree is read back from its rendering exactly if its clauses are well
formed, these are exactly the trees that can be read, rendering what was read and reading it again
changes nothing, and trees that were read are equal exactly if they are rendered alike. -/
theorem read_render_iff :
    (∀ e : Expr, (∃ t, read e.render = .ok t ∧ (t == e) = true) ↔ ∀ c ∈ e.leaves, c.WellFormed) ∧
    (∀ e : Expr, (∃ text, read text = .ok e) ↔ ∀ c ∈ e.leaves, c.WellFormed) ∧
    (∀ text t, read text = .ok t → read t.render = .ok t) ∧
    (∀ text₁ text₂ t₁ t₂, read text₁ = .ok t₁ → read text₂ = .ok t₂ →
      ((t₁ == t₂) = true ↔ t₁.render = t₂.render)) := by
  have hback (text t) (h : read text = .ok t) : read t.render = .ok t :=
    read_render (wellFormed_of_read h)
  refine ⟨fun e => ⟨?_, fun h => ⟨e, read_render h, beq_self_eq_true e⟩⟩,
    fun e => ⟨?_, fun h => ⟨e.render, read_render h⟩⟩, hback, ?_⟩
  · rintro ⟨t, ht, he⟩
    rw [eq_of_beq he] at ht
    exact wellFormed_of_read ht
  · rintro ⟨text, h⟩
    exact wellFormed_of_read h
  · intro text₁ text₂ t₁ t₂ h₁ h₂
    rw [beq_iff_eq]
    refine ⟨congrArg render, fun h => ?_⟩
    -- one text is read as both trees
    have ht := hback text₁ t₁ h₁
    rw [h, hback text₂ t₂ h₂] at ht
    exact (Except.ok.inj ht).symm

/-- An event's name and a literal whose quotes hold marks. -/
theorem read_render_iff_quoted :
    let c : Clause := ⟨some "\"(\"", "p", .notEqual, .ofText "x && y"⟩
    let e : Expr := .join .or (.clause c) (.clause c)
    read "\"(\"::p!=\"x && y\" || (\"(\"::p != \"x && y\")" = .ok e ∧
    (∀ d ∈ e.leaves, d.WellFormed) ∧ read e.render = .ok e := by
  intro c e
  have hread : read "\"(\"::p!=\"x && y\" || (\"(\"::p != \"x && y\")" = .ok e := by rfl
  refine ⟨hread, ?_, ?_⟩
  · exact (read_render_iff.2.1 e).1 ⟨_, hread⟩
  · exact read_render_iff.2.2.1 _ e hread

end EventSieve.Expr
