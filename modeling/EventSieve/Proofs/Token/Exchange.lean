import EventSieve.Proofs.Token.Layout

/-!
# Changing a text at one place

* `CutInto.after`, `CutInto.exchange`: **what follows some of the tokens is cut by itself**, and another
  text can take its place.
* `CutInto.insert`, `CutInto.replace`: blanks put between two tokens, and a clause put in place of
  another one, leave the other tokens as they were.
* `LaidOut.place`: every place of a text is between two tokens or inside one.
-/

namespace EventSieve

open Text

variable {b u v w gap rest text text' : List Char} {t : Token} {ts us vs : List Token}

/-- Blanks before a text do not change how it is cut. -/
theorem CutInto.of_blank_append (h : CutInto ts (b ++ text)) (hb : Blank b) : CutInto ts text := by
  cases ts with
  | nil =>
    cases h with
    | nil hgap => exact .nil (Text.blank_append.1 hgap).2
  | cons t ts =>
    obtain ⟨gap, rest, htext, hgap, hends, hrest⟩ := CutInto.cons_iff.1 h
    rcases List.append_eq_append_iff.1 htext with ⟨a, rfl, rfl⟩ | ⟨a, rfl, htoken⟩
    · exact .cons (Text.blank_append.1 hgap).2 hends hrest
    · -- the token does not start with a blank
      obtain ⟨hne, hstop⟩ := hends.stopsAt
      have hstop' := hstop.append hne (r := rest)
      rw [htoken] at hstop'
      cases a with
      | nil =>
        rw [List.nil_append] at htoken
        rw [← htoken]
        exact .cons blank_nil hends hrest
      | cons c a =>
        have hc := hb c (List.mem_append_right gap List.mem_cons_self)
        rw [stopsAt_cons.1 hstop'] at hc
        exact absurd hc Bool.false_ne_true

/-- The first token ends where its spelling does, and the rest is cut by itself. -/
theorem CutInto.of_cons (h : CutInto (t :: ts) (t.spelling ++ rest)) :
    t.EndsBefore ts rest ∧ CutInto ts rest := by
  obtain ⟨gap, rest', htext, hgap, hends, hrest⟩ := CutInto.cons_iff.1 h
  obtain ⟨hne, hstop⟩ := hends.stopsAt
  obtain ⟨-, hsame⟩ := run_unique blank_nil (hstop.append hne) hgap (hstop.append hne) htext
  obtain rfl := List.append_cancel_left hsame
  exact ⟨hends, hrest⟩

/-- **What follows some of the tokens is cut by itself.** -/
theorem CutInto.after (h : CutInto (ts ++ us) (u ++ text)) (hu : LaidOut ts u) : CutInto us text := by
  induction hu with
  | nil hgap => exact h.of_blank_append hgap
  | cons hgap hrest ih =>
    rw [List.append_assoc, List.append_assoc] at h
    exact ih (h.of_blank_append hgap).of_cons.2

/-- **Another text can follow**, unless a clause would then follow a clause or a connective begin. -/
theorem CutInto.exchange (h : CutInto (ts ++ us) (u ++ text)) (hu : LaidOut ts u)
    (h' : CutInto vs text')
    (hclause : ∀ v vs', vs = .clause v :: vs' → ∃ w us', us = .clause w :: us')
    (hhead : ∀ k : Connective, text'.head? = some k.char → text.head? = some k.char) :
    CutInto (ts ++ vs) (u ++ text') := by
  induction hu with
  | nil hgap => exact h'.blank_append hgap
  | @cons t ts gap rest hgap hrest ih =>
    rw [List.append_assoc, List.append_assoc] at h ⊢
    obtain ⟨hends, hcut⟩ := (h.of_blank_append hgap).of_cons
    refine .cons hgap ?_ (ih hcut)
    intro w hw
    obtain ⟨htext, hts, hend⟩ := hends w hw
    refine ⟨htext, ?_, ?_⟩
    · intro v vs' heq
      cases ts with
      | nil =>
        obtain ⟨w', us', hus⟩ := hclause v vs' heq
        exact hts w' us' hus
      | cons t ts =>
        refine hts v (ts ++ us) ?_
        rw [(List.cons.inj heq).1]
        rfl
    · intro k hk hh
      refine hend k hk ?_
      cases rest with
      | nil => exact hhead k hh
      | cons c rest => exact hh

/-- **Blanks can be put between two tokens.** -/
theorem CutInto.insert (h : CutInto (ts ++ us) (u ++ text)) (hu : LaidOut ts u) (hb : Blank b) :
    CutInto (ts ++ us) (u ++ (b ++ text)) := by
  refine h.exchange hu ((h.after hu).blank_append hb) (fun v vs hv => ⟨v, vs, hv⟩) fun k hk => ?_
  cases b with
  | nil => exact hk
  | cons c b => exact absurd hk (hb.head?_ne k.isBlank_char)

/-- **A clause can be put in place of another one** that starts and ends with the same characters. -/
theorem CutInto.replace {w' : List Char} (h : CutInto (ts ++ .clause w :: us) (u ++ (w ++ text)))
    (hu : LaidOut ts u) (hw' : IsClauseText w') (hhead : w'.head? = w.head?)
    (hlast : w'.getLast? = w.getLast?) : CutInto (ts ++ .clause w' :: us) (u ++ (w' ++ text)) := by
  obtain ⟨hends, htext⟩ := CutInto.of_cons (h.after hu)
  obtain ⟨-, hus, hend⟩ := hends w rfl
  have hends' : (Token.clause w').EndsBefore us text := by
    rintro _ ⟨⟩
    refine ⟨hw', hus, fun k hk => hend k ?_⟩
    rwa [← hlast]
  have hcut : CutInto (.clause w' :: us) ([] ++ (w' ++ text)) := .cons blank_nil hends' htext
  refine h.exchange hu hcut (fun _ _ _ => ⟨w, us, rfl⟩) fun k hk => ?_
  rwa [List.head?_append, ← hhead, ← List.head?_append]

/-- The clauses of a text that is cut. -/
theorem CutInto.isClauseText (h : CutInto (ts ++ .clause w :: us) (u ++ (w ++ text)))
    (hu : LaidOut ts u) : IsClauseText w :=
  ((CutInto.of_cons (h.after hu)).1 w rfl).1

/-- Where a text with the tokens `ts` is cut into `u` and `v`: between two tokens or inside one. -/
inductive Place : List Token → List Char → List Char → Prop
  | between {us vs : List Token} {u v : List Char} : LaidOut us u → LaidOut vs v →
      Place (us ++ vs) u v
  | inside {us vs : List Token} {t : Token} {u v p q : List Char} : LaidOut us u →
      t.spelling = p ++ q → p ≠ [] → q ≠ [] → LaidOut vs v → Place (us ++ t :: vs) (u ++ p) (q ++ v)

/-- One more token right after a text. -/
theorem LaidOut.concat (h : LaidOut ts text) : LaidOut (ts ++ [t]) (text ++ t.spelling) := by
  induction h with
  | nil hgap =>
    have hlaid : LaidOut [t] (_ ++ (t.spelling ++ [])) := .cons hgap (.nil blank_nil)
    rwa [List.append_nil] at hlaid
  | cons hgap hrest ih =>
    rw [List.append_assoc, List.append_assoc]
    exact .cons hgap ih

theorem Place.cons (h : Place ts u v) (hgap : Blank gap) :
    Place (t :: ts) (gap ++ (t.spelling ++ u)) v := by
  cases h with
  | between hu hv => exact .between (.cons hgap hu) hv
  | inside hu ht hp hq hv =>
    rw [← List.append_assoc t.spelling, ← List.append_assoc gap]
    exact .inside (.cons hgap hu) ht hp hq hv

/-- Before the first token. -/
theorem Place.start (hu : Blank u) (hv : LaidOut ts v) : Place ts u v :=
  @Place.between [] ts u v (.nil hu) hv

/-- **Every place of a text is between two tokens or inside one.** -/
theorem LaidOut.place (h : LaidOut ts text) (htext : text = u ++ v) : Place ts u v := by
  induction h generalizing u with
  | nil hgap =>
    rw [htext] at hgap
    obtain ⟨hu, hv⟩ := blank_append.1 hgap
    exact .start hu (.nil hv)
  | @cons t ts gap rest hgap hrest ih =>
    rcases List.append_eq_append_iff.1 htext with ⟨p, rfl, hp⟩ | ⟨r, rfl, rfl⟩
    · rcases List.append_eq_append_iff.1 hp with ⟨u, rfl, hu⟩ | ⟨q, hq, rfl⟩
      · exact (ih hu).cons hgap
      · -- the place is at the token's start, at its end, or inside
        by_cases hnil : p = []
        · rw [hnil, List.nil_append] at hq
          rw [hnil, List.append_nil, ← hq]
          exact .start hgap (.cons blank_nil hrest)
        · by_cases hnil' : q = []
          · rw [hnil', List.append_nil] at hq
            rw [hnil', List.nil_append, ← hq]
            exact .between (LaidOut.nil hgap).concat hrest
          · exact @Place.inside [] ts t gap rest p q (.nil hgap) hq hnil hnil' hrest
    · obtain ⟨hu, hr⟩ := blank_append.1 hgap
      exact .start hu (.cons hr hrest)

/-- The spellings of tokens end outside quotes if those of the clauses do. -/
theorem LaidOut.quotesClosed (h : LaidOut ts text) (hts : ∀ w, .clause w ∈ ts → QuotesClosed w) :
    QuotesClosed text := by
  induction h with
  | nil hgap => exact quotesClosed_of_not_special (not_special_of_blank hgap)
  | @cons t ts gap rest hgap hrest ih =>
    have htoken : QuotesClosed t.spelling := by
      cases t with
      | clause w => exact hts w List.mem_cons_self
      | connective k => cases k <;> rfl
      | opening => rfl
      | closing => rfl
    rw [quotesClosed_append (quotesClosed_of_not_special (not_special_of_blank hgap)),
      quotesClosed_append htoken]
    exact ih fun w hw => hts w (List.mem_cons_of_mem t hw)

end EventSieve
