import EventSieve.Proofs.Token.Balance

/-!
# How tokens are laid out in a text

* `LaidOut`: a text is the spellings of tokens in their order, with nothing but blanks around them.
* `CutInto`: the tokens are moreover those a scan cuts the text into: no clause runs into the next
  token.
* `scan_iff_cutInto`: **a scan finds exactly the tokens that a text is cut into**, if their parentheses
  are balanced.
* `scan_lossless`: **a scan loses nothing**, and its tokens are found again when they are written
  with single spaces between them.
-/

namespace EventSieve

open Scan Text

/-- A text is the spellings of tokens, with nothing but blanks before, between and after them. -/
inductive LaidOut : List Token → List Char → Prop
  | nil {gap : List Char} : Blank gap → LaidOut [] gap
  | cons {t : Token} {ts : List Token} {gap rest : List Char} : Blank gap → LaidOut ts rest →
      LaidOut (t :: ts) (gap ++ (t.spelling ++ rest))

/-- What a clause token holds: a text that is not empty, has no blanks around it and no marks, and has
its quotes in pairs. -/
structure IsClauseText (w : List Char) : Prop where
  ne_nil : w ≠ []
  stopsAt : StopsAt isBlank w
  stopsAt_reverse : StopsAt isBlank w.reverse
  unmarked : Unmarked w
  quotesClosed : QuotesClosed w

/-- A token ends where it does before the tokens `ts` in the text `rest`: a clause is not followed by
another one, and makes no connective with what follows it. -/
def Token.EndsBefore (t : Token) (ts : List Token) (rest : List Char) : Prop :=
  ∀ w, t = .clause w → IsClauseText w ∧ (∀ v us, ts ≠ .clause v :: us) ∧
    ∀ k : Connective, w.getLast? = some k.char → rest.head? ≠ some k.char

/-- A text is laid out by tokens each of which ends before the rest of it. -/
inductive CutInto : List Token → List Char → Prop
  | nil {gap : List Char} : Blank gap → CutInto [] gap
  | cons {t : Token} {ts : List Token} {gap rest : List Char} : Blank gap → t.EndsBefore ts rest →
      CutInto ts rest → CutInto (t :: ts) (gap ++ (t.spelling ++ rest))

variable {a b u w p rest text gap : List Char} {t m : Token} {ts us : List Token} {s r : Scan}

theorem Token.IsMark.endsBefore (h : m.IsMark) : m.EndsBefore ts rest := by
  rintro w rfl
  exact absurd h id

/-- A mark has no blanks. -/
theorem Token.IsMark.isBlank (h : m.IsMark) : ∀ c ∈ m.spelling, Text.isBlank c = false := by
  cases m with
  | clause w => exact absurd h id
  | connective k => cases k <;> decide
  | opening => decide
  | closing => decide

/-- The spelling of a token that is found starts with a character that is not blank. -/
theorem Token.EndsBefore.stopsAt (h : t.EndsBefore ts rest) :
    t.spelling ≠ [] ∧ StopsAt isBlank t.spelling := by
  by_cases hm : t.IsMark
  · obtain ⟨c, s, hs, -⟩ := hm.spelling_eq_cons
    exact ⟨by simp [hs], stopsAt_of_forall hm.isBlank⟩
  · cases t with
    | clause w => exact ⟨(h w rfl).1.ne_nil, (h w rfl).1.stopsAt⟩
    | connective k => exact absurd trivial hm
    | opening => exact absurd trivial hm
    | closing => exact absurd trivial hm

theorem CutInto.laidOut (h : CutInto ts text) : LaidOut ts text := by
  induction h with
  | nil hgap => exact .nil hgap
  | cons hgap ht hrest ih => exact .cons hgap ih

/-- Blanks before a text do not change how it is cut. -/
theorem CutInto.blank_append (hb : Blank b) (h : CutInto ts text) : CutInto ts (b ++ text) := by
  cases h with
  | nil hgap => exact .nil (blank_append.2 ⟨hb, hgap⟩)
  | cons hgap ht hrest =>
    rw [← List.append_assoc]
    exact .cons (blank_append.2 ⟨hb, hgap⟩) ht hrest

/-- The first token of a text that is cut. -/
theorem CutInto.cons_iff : CutInto (t :: ts) text ↔ ∃ gap rest, text = gap ++ (t.spelling ++ rest) ∧
    Blank gap ∧ t.EndsBefore ts rest ∧ CutInto ts rest := by
  constructor
  · intro h
    cases h with
    | cons hgap ht hrest => exact ⟨_, _, rfl, hgap, ht, hrest⟩
  · rintro ⟨gap, rest, rfl, hgap, ht, hrest⟩
    exact .cons hgap ht hrest

/-- **A part of a text without marks** is one clause before the next mark, or none. -/
theorem CutInto.piece (h : CutInto ts rest) (hts : ∀ w us, ts ≠ .clause w :: us) (hu : Unmarked p)
    (hq : QuotesClosed p) (hj : ∀ k : Connective, p.getLast? = some k.char → rest.head? ≠ some k.char) :
    CutInto (foundWith p.reverse [] ++ ts) (p ++ rest) := by
  rw [foundWith_def, List.reverse_reverse]
  by_cases hblank : Blank p
  · rw [trim_of_blank hblank]
    exact h.blank_append hblank
  · have hne : trim p ≠ [] := mt trim_eq_nil_iff.1 hblank
    rw [if_neg (mt List.isEmpty_iff.1 hne)]
    obtain ⟨a, b, ha, hb, hp⟩ := exists_trim p
    have hends : (Token.clause (trim p)).EndsBefore ts (b ++ rest) := by
      rintro w ⟨⟩
      refine ⟨⟨hne, stopsAt_trim p, stopsAt_reverse_trim p, hu.trim, quotesClosed_trim.2 hq⟩, hts, ?_⟩
      intro k hk hh
      cases b with
      | nil =>
        refine hj k ?_ hh
        rw [hp, List.append_nil, List.getLast?_append, hk]
        rfl
      | cons c b => exact hb.head?_ne k.isBlank_char hh
    have hcut : CutInto (.clause (trim p) :: ts) (a ++ (trim p ++ (b ++ rest))) :=
      .cons ha hends (h.blank_append hb)
    have htext : p ++ rest = a ++ (trim p ++ (b ++ rest)) := by
      conv_lhs => rw [hp]
      simp only [List.append_assoc]
    rw [htext]
    exact hcut

/-- What is pending, the mark that ends it, and the rest: what is pending is found before the mark. -/
theorem CutInto.mark {pending : List Char} (h : CutInto ts rest) (hm : m.IsMark)
    (hu : Unmarked pending.reverse) (hq : QuotesClosed pending.reverse)
    (hj : ∀ k : Connective, pending.reverse.getLast? = some k.char →
      (m.spelling ++ rest).head? ≠ some k.char) (found : List Token) :
    ∃ us, CutInto us (pending.reverse ++ (m.spelling ++ rest)) ∧
      ts.reverse ++ m :: foundWith pending found = us.reverse ++ found := by
  have hcut : CutInto (m :: ts) ([] ++ (m.spelling ++ rest)) := .cons blank_nil hm.endsBefore h
  have hpiece := hcut.piece (by rintro w us ⟨⟩; exact hm) hu hq hj
  rw [List.reverse_reverse] at hpiece
  refine ⟨_, hpiece, ?_⟩
  rw [List.reverse_append, List.reverse_cons, reverse_foundWith_nil, List.append_assoc,
    List.append_assoc, ← foundWith_append, List.nil_append, List.singleton_append]

/-- **A scan cuts a text at the tokens it finds.** -/
theorem cutInto_of_run (hs : Tidy s) (hrun : s.run text = .ok r) (hr : r.quote = none) :
    ∃ ts, CutInto ts (s.pending.reverse ++ text) ∧
      foundWith r.pending r.found = ts.reverse ++ s.found := by
  induction text generalizing s with
  | nil =>
    cases hrun
    have hpiece := CutInto.piece (.nil blank_nil) (fun _ _ h => nomatch h) hs.unmarked (hs.quote_iff.1 hr)
      fun _ _ h => nomatch h
    rw [List.reverse_reverse, List.append_nil] at hpiece
    refine ⟨_, hpiece, ?_⟩
    rw [reverse_foundWith_nil]
    exact foundWith_append _ [] _
  | cons c text ih =>
    obtain ⟨s', hm, hrest⟩ := run_cons_eq_ok.1 hrun
    obtain ⟨ts, hcut, hfound⟩ := ih (hs.move hm) hrest
    -- a character that is kept belongs to what is pending, and a mark ends it
    have hkept : (c :: s.pending).reverse ++ text = s.pending.reverse ++ c :: text := by simp
    cases hm with
    | quoted hq => exact ⟨ts, hkept ▸ hcut, hfound⟩
    | quote hq => exact ⟨ts, hkept ▸ hcut, hfound⟩
    | opening hq =>
      obtain ⟨us, hcut', hus⟩ := hcut.mark (m := .opening) trivial hs.unmarked (hs.quote_iff.1 hq)
        (fun k _ hh => absurd (Option.some.inj hh) (by cases k <;> decide)) s.found
      exact ⟨us, hcut', hfound.trans hus⟩
    | closing hq hd =>
      obtain ⟨us, hcut', hus⟩ := hcut.mark (m := .closing) trivial hs.unmarked (hs.quote_iff.1 hq)
        (fun k _ hh => absurd (Option.some.inj hh) (by cases k <;> decide)) s.found
      exact ⟨us, hcut', hfound.trans hus⟩
    | @connective k before hq hp =>
      have hu := hs.unmarked
      have hc := hs.quote_iff.1 hq
      rw [hp, List.reverse_cons] at hu hc
      obtain ⟨hu', hjoin⟩ := unmarked_concat.1 hu
      have hc' := (quotesClosed_concat.1 hc).2 k.char_ne_quote
      -- the first half of the connective is not the second half of another one
      obtain ⟨us, hcut', hus⟩ := hcut.mark (m := .connective k) trivial hu' hc' (fun k' hk' hh => by
        have hkk : k.char = k'.char := Option.some.inj hh
        exact (hjoin hc').2.2 k rfl (hk'.trans (congrArg some hkk.symm))) s.found
      refine ⟨us, ?_, hfound.trans hus⟩
      rw [hp, List.reverse_cons, List.append_assoc]
      exact hcut'
    | plain hq h1 h2 h3 hk => exact ⟨ts, hkept ▸ hcut, hfound⟩

/-- A scan that can go on by a text with the tokens `ts`: it is outside quotes, nothing is pending where a
clause comes next, and no connective is made where the text begins. -/
structure Scan.Ready (s : Scan) (ts : List Token) (text : List Char) : Prop where
  quote_eq : s.quote = none
  clause : ∀ w us, ts = .clause w :: us → Blank s.pending
  join : ∀ k : Connective, s.pending.head? = some k.char → text.head? ≠ some k.char

/-- Blanks are passed and change nothing. -/
theorem Scan.Ready.blanks (h : s.Ready ts (gap ++ rest)) (hgap : Blank gap) :
    ∃ r, s.run gap = .ok r ∧ r.Ready ts rest ∧ r.depth = s.depth ∧
      foundWith r.pending r.found = foundWith s.pending s.found := by
  have hspecial := not_special_of_blank hgap
  have hjoin : ∀ k : Connective, s.pending.head? = some k.char → gap.head? ≠ some k.char :=
    fun k _ => hgap.head?_ne k.isBlank_char
  obtain ⟨r, hr, hq, hp, hf, hd⟩ := run_of_unmarked h.quote_eq (unmarked_of_not_special hspecial) hjoin
  refine ⟨r, hr, ⟨hq.2 (quotesClosed_of_not_special hspecial), ?_, ?_⟩, hd, ?_⟩
  · intro w us hts
    rw [hp]
    exact blank_append.2 ⟨blank_reverse.2 hgap, h.clause w us hts⟩
  · -- a blank is no half of a connective
    intro k hk
    rw [hp] at hk
    rcases List.eq_nil_or_concat' gap with rfl | ⟨gap, c, rfl⟩
    · exact h.join k hk
    · rw [List.reverse_append] at hk
      exact absurd hk ((blank_append.1 hgap).2.head?_ne k.isBlank_char)
  · rw [hp, hf, foundWith_blank_append (blank_reverse.2 hgap)]

/-- **A mark is found** wherever no parenthesis is closed that is not open. -/
theorem Scan.Ready.mark (h : s.Ready (m :: ts) (m.spelling ++ rest)) (hm : m.IsMark)
    (hd : 0 ≤ (s.depth : Int) + nesting [m]) :
    ∃ r, s.run m.spelling = .ok r ∧ r.Ready ts rest ∧ (r.depth : Int) = s.depth + nesting [m] ∧
      foundWith r.pending r.found = m :: foundWith s.pending s.found := by
  have hready : ∀ {r : Scan}, r.quote = none → r.pending = [] → r.Ready ts rest := by
    intro r hq hp
    refine ⟨hq, fun _ _ _ => hp ▸ blank_nil, fun k hk => ?_⟩
    rw [hp] at hk
    exact nomatch hk
  have hs := h.quote_eq
  cases m with
  | clause w => exact absurd hm id
  | opening => exact ⟨_, run_cons_eq_ok.2 ⟨_, .opening hs, rfl⟩, hready hs rfl, rfl, rfl⟩
  | closing =>
    rw [nesting_closing] at hd
    have hne : s.depth ≠ 0 := by omega
    refine ⟨_, run_cons_eq_ok.2 ⟨_, .closing hs hne, rfl⟩, hready hs rfl, ?_, rfl⟩
    rw [nesting_closing]
    simp only [emit]
    omega
  | connective k =>
    obtain ⟨h1, h2, h3⟩ := connective_char_ne k
    have hfirst : Move s k.char (s.keep k.char none) := by
      refine .plain hs h1 h2 h3 fun k' hk hh => h.join k' hh ?_
      rw [← hk]
      rfl
    have hsecond : Move (s.keep k.char none) k.char _ := .connective rfl rfl
    have hrun := run_cons_eq_ok.2 ⟨_, hfirst, run_cons_eq_ok.2 ⟨_, hsecond, run_nil _⟩⟩
    exact ⟨_, hrun, hready rfl rfl, (Int.add_zero _).symm, rfl⟩

/-- **A clause is found** where it ends before what follows it. -/
theorem Scan.Ready.clauseText (h : s.Ready (.clause w :: ts) (w ++ rest))
    (hw : (Token.clause w).EndsBefore ts rest) :
    ∃ r, s.run w = .ok r ∧ r.Ready ts rest ∧ r.depth = s.depth ∧
      foundWith r.pending r.found = .clause w :: foundWith s.pending s.found := by
  obtain ⟨hw, hts, hend⟩ := hw w rfl
  have hblank : Blank s.pending := h.clause w ts rfl
  have hjoin : ∀ k : Connective, s.pending.head? = some k.char → w.head? ≠ some k.char :=
    fun k hk => absurd hk (hblank.head?_ne k.isBlank_char)
  obtain ⟨r, hr, hq, hp, hf, hd⟩ := run_of_unmarked h.quote_eq hw.unmarked hjoin
  refine ⟨r, hr, ⟨hq.2 hw.quotesClosed, fun v us heq => absurd heq (hts v us), ?_⟩, hd, ?_⟩
  · intro k hk
    obtain ⟨c, u, hu⟩ := List.exists_cons_of_ne_nil (List.reverse_ne_nil_iff.2 hw.ne_nil)
    rw [hp, hu, List.cons_append, List.head?_cons] at hk
    refine hend k ?_
    rw [← List.head?_reverse, hu, List.head?_cons, hk]
  · rw [hp, hf, foundWith_append_blank hblank, foundWith_of_blank hblank, foundWith_def,
      List.reverse_reverse, trim_eq_self hw.stopsAt hw.stopsAt_reverse,
      if_neg (mt List.isEmpty_iff.1 hw.ne_nil)]

/-- The next token is found. -/
theorem Scan.Ready.token (h : s.Ready (t :: ts) (t.spelling ++ rest)) (ht : t.EndsBefore ts rest)
    (hd : 0 ≤ (s.depth : Int) + nesting [t]) :
    ∃ r, s.run t.spelling = .ok r ∧ r.Ready ts rest ∧ (r.depth : Int) = s.depth + nesting [t] ∧
      foundWith r.pending r.found = t :: foundWith s.pending s.found := by
  cases t with
  | clause w =>
    obtain ⟨r, hr, hready, hdepth, hfound⟩ := h.clauseText ht
    exact ⟨r, hr, hready, by rw [hdepth]; exact (Int.add_zero _).symm, hfound⟩
  | connective k => exact h.mark trivial hd
  | opening => exact h.mark trivial hd
  | closing => exact h.mark trivial hd

/-- **A text is scanned as it is cut**, where no parenthesis is closed that is not open. -/
theorem CutInto.run (h : CutInto ts text) (hs : s.Ready ts text)
    (hd : ∀ us, us <+: ts → 0 ≤ (s.depth : Int) + nesting us) :
    ∃ r, s.run text = .ok r ∧ r.quote = none ∧ (r.depth : Int) = s.depth + nesting ts ∧
      foundWith r.pending r.found = ts.reverse ++ foundWith s.pending s.found := by
  induction h generalizing s with
  | @nil gap hgap =>
    rw [← List.append_nil gap] at hs
    obtain ⟨r, hr, hready, hdepth, hfound⟩ := hs.blanks hgap
    refine ⟨r, hr, hready.quote_eq, ?_, hfound⟩
    rw [hdepth, nesting_nil, Int.add_zero]
  | @cons t ts gap rest hgap ht hrest ih =>
    have hcons : ∀ us, nesting (t :: us) = nesting [t] + nesting us := fun us => nesting_append [t] us
    have hopen : ∀ us, us <+: ts → 0 ≤ (s.depth : Int) + nesting [t] + nesting us := by
      intro us hus
      rw [Int.add_assoc, ← hcons]
      exact hd (t :: us) (List.cons_prefix_cons.2 ⟨rfl, hus⟩)
    obtain ⟨r₁, hr₁, hready₁, hd₁, hf₁⟩ := hs.blanks hgap
    have hfirst : 0 ≤ (r₁.depth : Int) + nesting [t] := by
      have hle := hopen [] List.nil_prefix
      rw [nesting_nil] at hle
      rw [hd₁]
      omega
    obtain ⟨r₂, hr₂, hready₂, hd₂, hf₂⟩ := hready₁.token ht hfirst
    obtain ⟨r, hr, hq, hdr, hf⟩ := ih hready₂ fun us hus => by
      rw [hd₂, hd₁]
      exact hopen us hus
    refine ⟨r, ?_, hq, ?_, ?_⟩
    · exact run_append_eq_ok.2 ⟨r₁, hr₁, run_append_eq_ok.2 ⟨r₂, hr₂, hr⟩⟩
    · rw [hdr, hd₂, hd₁, hcons ts, Int.add_assoc]
    · rw [hf, hf₂, hf₁]
      simp

/-- **A scan finds exactly the tokens that a text is cut into**, if their parentheses are balanced. -/
theorem scan_iff_cutInto : Token.scan text = .ok ts ↔ CutInto ts text ∧ Balanced ts := by
  constructor
  · intro h
    refine ⟨?_, balanced_of_scan h⟩
    obtain ⟨r, hrun, ht⟩ := Token.scan_eq_ok_iff.1 h
    obtain ⟨hq, -, hf⟩ := tokens_eq_ok_iff.1 ht
    obtain ⟨us, hcut, hfound⟩ := cutInto_of_run tidy_start hrun hq
    have heq : us = ts := by
      rw [hf, show start.found = [] from rfl, List.append_nil] at hfound
      exact (List.reverse_injective hfound).symm
    rwa [heq] at hcut
  · rintro ⟨hcut, hbalanced⟩
    have hready : start.Ready ts text := ⟨rfl, fun _ _ _ => blank_nil, fun _ h => nomatch h⟩
    obtain ⟨r, hrun, hq, hd, hf⟩ := hcut.run hready fun us ⟨vs, h⟩ => by
      have hle := hbalanced.nonneg us vs h.symm
      rw [show start.depth = 0 from rfl]
      omega
    have hdepth : r.depth = 0 := by
      rw [hbalanced.nesting_eq, show start.depth = 0 from rfl] at hd
      omega
    refine Token.scan_eq_ok_iff.2 ⟨r, hrun, tokens_eq_ok_iff.2 ⟨hq, hdepth, ?_⟩⟩
    rw [hf]
    exact List.append_nil _

/-- The tokens after some of those a text is cut into are what the rest of it is cut into. -/
theorem CutInto.of_append (h : CutInto (us ++ ts) text) : ∃ rest, CutInto ts rest := by
  induction us generalizing text with
  | nil => exact ⟨text, h⟩
  | cons u us ih =>
    obtain ⟨gap, rest, -, -, -, hrest⟩ := CutInto.cons_iff.1 h
    exact ih hrest

/-- **The clauses that a text is cut into** are clause texts. -/
theorem CutInto.isClauseText_of_mem (h : CutInto ts text) (hw : .clause w ∈ ts) : IsClauseText w := by
  obtain ⟨us, vs, rfl⟩ := List.append_of_mem hw
  obtain ⟨rest, hrest⟩ := h.of_append
  obtain ⟨gap, rest, -, -, hends, -⟩ := CutInto.cons_iff.1 hrest
  exact (hends w rfl).1

/-- Only a connective can keep a token from ending where it does. -/
theorem Token.EndsBefore.of_head {z : List Char} (h : t.EndsBefore ts rest)
    (hz : ∀ k : Connective, z.head? = some k.char → rest.head? = some k.char) :
    t.EndsBefore ts z := by
  intro w hw
  obtain ⟨htext, hts, hend⟩ := h w hw
  exact ⟨htext, hts, fun k hk hh => hend k hk (hz k hh)⟩

/-- **Tokens can be written with a single space between them.** -/
theorem CutInto.spaced (h : CutInto ts text) :
    CutInto ts (List.intercalate [' '] (ts.map Token.spelling)) := by
  induction h with
  | nil hgap => exact .nil blank_nil
  | @cons t ts gap rest hgap ht hrest ih =>
    cases ts with
    | nil =>
      have hcut : CutInto [t] ([] ++ (t.spelling ++ [])) :=
        .cons blank_nil (ht.of_head fun k hk => nomatch hk) (.nil blank_nil)
      simpa using hcut
    | cons u us =>
      have hspace : ∀ k : Connective, ' ' ≠ k.char := by
        intro k
        cases k with
        | and => decide
        | or => decide
      have hends := ht.of_head (z := ' ' :: List.intercalate [' '] ((u :: us).map Token.spelling))
        fun k hk => absurd (Option.some.inj hk) (hspace k)
      have hcut := CutInto.cons blank_nil hends (ih.blank_append blank_space)
      simpa using hcut

/-- **A scan loses nothing.** The text is the spellings of its tokens with only blanks around them. The
clauses are not empty, have no blank at either end, no mark outside quotes and their quotes in pairs; no
two of them follow each other; the parentheses are balanced. And the tokens are found again when they
are written with single spaces between them. -/
theorem scan_lossless (h : Token.scan text = .ok ts) :
    LaidOut ts text ∧ (∀ w, .clause w ∈ ts → IsClauseText w) ∧
    (∀ us v w vs, ts ≠ us ++ .clause v :: .clause w :: vs) ∧ Balanced ts ∧
    Token.scan (List.intercalate [' '] (ts.map Token.spelling)) = .ok ts := by
  obtain ⟨hcut, hbalanced⟩ := scan_iff_cutInto.1 h
  refine ⟨hcut.laidOut, fun w hw => hcut.isClauseText_of_mem hw, ?_, hbalanced,
    scan_iff_cutInto.2 ⟨hcut.spaced, hbalanced⟩⟩
  rintro us v w vs rfl
  obtain ⟨rest, hrest⟩ := hcut.of_append
  obtain ⟨gap, rest, -, -, hends, -⟩ := CutInto.cons_iff.1 hrest
  exact (hends v rfl).2.1 w vs rfl

/-- Of three `&` in a row the first two are a connective, and the parenthesis in quotes is none. -/
theorem scan_lossless_tripled :
    let text := "(a=\"x)\"&&&E::b<2 )".toList
    let ts : List Token := [.opening, .clause "a=\"x)\"".toList, .connective .and,
      .clause "&E::b<2".toList, .closing]
    Token.scan text = .ok ts ∧ LaidOut ts text ∧
      Token.scan "( a=\"x)\" && &E::b<2 )".toList = .ok ts := by
  intro text ts
  have hscan : Token.scan text = .ok ts := by rfl
  obtain ⟨hlaid, -, -, -, hagain⟩ := scan_lossless hscan
  exact ⟨hscan, hlaid, hagain⟩

end EventSieve
