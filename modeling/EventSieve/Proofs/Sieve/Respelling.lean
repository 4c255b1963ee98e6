import Mathlib.Logic.Relation
import EventSieve.Proofs.Clause.Respelling
import EventSieve.Proofs.Expr.Equality
import EventSieve.Proofs.Sieve.Composition

/-!
# Other spellings of a filter

* `Edit`: one way of spelling a text differently outside quotes: blanks at an end, around a parenthesis or
  connective or next to blanks, and another spelling of a clause's operator.
* `Expr.Reads.edit`: **one edit of a text that is a filter leaves its tree what it is**, because it puts
  blanks between two tokens or another spelling in place of a clause.
* `Sieve.ofText_edits`: so do any number of them, one after the other.
-/

namespace EventSieve

open Text

/-- A token stands between the texts `u` and `v`, in the text that they make with it. -/
def Token.StandsBetween (t : Token) (u v : List Char) : Prop :=
  ∃ us vs, Token.scan (u ++ (t.spelling ++ v)) = .ok (us ++ t :: vs) ∧ LaidOut us u ∧ LaidOut vs v

/-- Ways of spelling a text differently, all outside quotes. -/
inductive Edit : List Char → List Char → Prop
  | start {text b : List Char} : Blank b → Edit text (b ++ text)
  | finish {text b : List Char} : Blank b → Edit text (text ++ b)
  | beforeMark {m : Token} {u v b : List Char} : m.IsMark → m.StandsBetween u v → Blank b →
      Edit (u ++ (m.spelling ++ v)) (u ++ (b ++ (m.spelling ++ v)))
  | afterMark {m : Token} {u v b : List Char} : m.IsMark → m.StandsBetween u v → Blank b →
      Edit (u ++ (m.spelling ++ v)) (u ++ (m.spelling ++ (b ++ v)))
  | operator {d d' : Clause.Division} {c : Clause} {u v : List Char} :
      (Token.clause d.text).StandsBetween u v → d.Spells c → d.OperatorEdit d' →
      Edit (u ++ (d.text ++ v)) (u ++ (d'.text ++ v))
  | besideBlank {u v b : List Char} : QuotesClosed u → BesideBlank u v → Blank b →
      Edit (u ++ v) (u ++ (b ++ v))

variable {b u v w text text' : List Char} {ts us vs : List Token} {e : Expr} {c : Clause}

namespace Expr

/-- A clause among tokens that spell a tree is read, and any text that is read as the same clause can
stand in its place. -/
theorem Spelled.replace (h : Spelled .level (us ++ .clause w :: vs) e) :
    ∃ c, Clause.read w = .ok c ∧
      ∀ w', Clause.read w' = .ok c → Spelled .level (us ++ .clause w' :: vs) e := by
  obtain ⟨a, hrun, he⟩ := bind_eq_ok.1 (ofTokens_eq_ok_iff.2 h)
  obtain ⟨a₁, hrun₁, hrest⟩ := Assembly.run_append_eq_ok.1 hrun
  obtain ⟨a₂, hm, hrun₂⟩ := Assembly.run_cons_eq_ok.1 hrest
  cases hm with
  | @clause l ls _ c hwants hread =>
    refine ⟨c, hread, fun w' hread' => ofTokens_eq_ok_iff.1 (bind_eq_ok.2 ⟨a, ?_, he⟩)⟩
    refine Assembly.run_append_eq_ok.2 ⟨_, hrun₁, Assembly.run_cons_eq_ok.2 ⟨_, ?_, hrun₂⟩⟩
    exact .clause hwants hread'

/-- **A text is read as a tree exactly when it is cut into tokens that spell the tree.** -/
theorem reads_iff_cutInto : Reads .level text e ↔ ∃ ts, CutInto ts text ∧ Spelled .level ts e := by
  constructor
  · rintro ⟨ts, hscan, hs⟩
    exact ⟨ts, (scan_iff_cutInto.1 hscan).1, hs⟩
  · rintro ⟨ts, hcut, hs⟩
    exact ⟨ts, scan_iff_cutInto.2 ⟨hcut, hs.balanced⟩, hs⟩

/-- Blanks between two tokens change nothing. -/
theorem reads_insert (h : CutInto (us ++ vs) (u ++ v)) (hu : LaidOut us u) (hb : Blank b)
    (hs : Spelled .level (us ++ vs) e) : Reads .level (u ++ (b ++ v)) e :=
  reads_iff_cutInto.2 ⟨us ++ vs, h.insert hu hb, hs⟩

/-- Neither does another operator, or other blanks around it, if they make the same clause. -/
theorem reads_replace {d d' : Clause.Division}
    (h : CutInto (us ++ .clause d.text :: vs) (u ++ (d.text ++ v))) (hu : LaidOut us u)
    (hs : Spelled .level (us ++ .clause d.text :: vs) e) (hd : d.Spells c) (hd' : d'.Spells c)
    (hl : d'.literal = d.literal) : Reads .level (u ++ (d'.text ++ v)) e := by
  obtain ⟨hhead, hlast⟩ := hd.ends hd' hl
  have hcut := h.replace hu (hd.isClauseText hd' hl (h.isClauseText hu)) hhead hlast
  obtain ⟨c', hread, hreplace⟩ := hs.replace
  rw [hd.read_text] at hread
  cases hread
  exact reads_iff_cutInto.2 ⟨_, hcut, hreplace _ hd'.read_text⟩

/-- Neither do blanks next to blanks, between two tokens or inside a clause. -/
theorem Reads.besideBlank (h : Reads .level (u ++ v) e) (hq : QuotesClosed u)
    (hbeside : BesideBlank u v) (hb : Blank b) : Reads .level (u ++ (b ++ v)) e := by
  obtain ⟨ts, hscan, hs⟩ := h
  obtain ⟨hcut, -⟩ := scan_iff_cutInto.1 hscan
  cases hcut.laidOut.place rfl with
  | between hu hv => exact reads_insert hcut hu hb hs
  | @inside us vs t u v p q hu ht hp hq' hv =>
    rw [besideBlank_append hp hq'] at hbeside
    have hmark : ¬ t.IsMark := by
      intro hm
      refine not_besideBlank (fun c hc => hm.isBlank c ?_) hbeside
      rwa [ht]
    cases t with
    | clause w =>
      have htext : u ++ p ++ (q ++ v) = u ++ (w ++ v) := by
        rw [show w = p ++ q from ht]
        simp only [List.append_assoc]
      rw [htext] at hcut
      have hw := hcut.isClauseText hu
      obtain ⟨c, hread, -⟩ := hs.replace
      rw [Clause.read_eq_ok_iff, trim_eq_self hw.stopsAt hw.stopsAt_reverse] at hread
      obtain ⟨d, rfl, hd⟩ := Clause.Division.exists_of_spelled hread
      -- outside quotes in the whole text is outside quotes in the clause
      have hclosed := hu.quotesClosed fun w hw =>
        (unmarked_of_scan hscan (List.mem_append_left _ hw)).2
      rw [quotesClosed_append hclosed] at hq
      obtain ⟨d', hd', hl, htext'⟩ := hd.insert hw.quotesClosed ht hp hq' hq hbeside hb
      have hreads := reads_replace hcut hu hs hd hd' hl
      rw [htext'] at hreads
      simpa only [List.append_assoc] using hreads
    | connective k => exact absurd trivial hmark
    | opening => exact absurd trivial hmark
    | closing => exact absurd trivial hmark

/-- **One edit leaves the tree what it is.** -/
theorem Reads.edit (h : Reads .level text e) (hedit : Edit text text') : Reads .level text' e := by
  cases hedit with
  | start hb =>
    obtain ⟨ts, hcut, hs⟩ := reads_iff_cutInto.1 h
    exact reads_iff_cutInto.2 ⟨ts, hcut.blank_append hb, hs⟩
  | finish hb =>
    obtain ⟨ts, hcut, hs⟩ := reads_iff_cutInto.1 h
    have hlaid := hcut.laidOut
    rw [← List.append_nil text, ← List.append_nil ts] at hcut
    rw [← List.append_nil ts] at hs
    have hreads := reads_insert hcut hlaid hb hs
    rwa [List.append_nil] at hreads
  | beforeMark hm hstands hb =>
    obtain ⟨us, vs, hscan, hu, hv⟩ := hstands
    exact reads_insert (scan_iff_cutInto.1 hscan).1 hu hb ((reads_iff_of_scan hscan).1 h)
  | afterMark hm hstands hb =>
    obtain ⟨us, vs, hscan, hu, hv⟩ := hstands
    have hs := (reads_iff_of_scan hscan).1 h
    obtain ⟨hcut, -⟩ := scan_iff_cutInto.1 hscan
    rw [List.append_cons us] at hs
    rw [List.append_cons us, ← List.append_assoc] at hcut
    have hreads := reads_insert hcut hu.concat hb hs
    rwa [List.append_assoc] at hreads
  | operator hstands hd hop =>
    obtain ⟨us, vs, hscan, hu, hv⟩ := hstands
    obtain ⟨hd', hl⟩ := hop.spells hd
    exact reads_replace (scan_iff_cutInto.1 hscan).1 hu ((reads_iff_of_scan hscan).1 h) hd hd' hl
  | besideBlank hq hbeside hb => exact h.besideBlank hq hbeside hb

/-- **Any number of edits** leave the tree what it is. -/
theorem Reads.edits (h : Reads .level text e) (hedits : Relation.ReflTransGen Edit text text') :
    Reads .level text' e := by
  induction hedits with
  | refl => exact h
  | tail _ hedit ih => exact ih.edit hedit

end Expr

namespace Sieve

/-- **Spelling a filter differently outside quotes changes neither its tree nor its verdicts**: any number
of edits makes a filter again, with an equal tree, which gives the same verdict on every event. -/
theorem ofText_edits {s : Sieve} {text text' : String} (h : ofText text = .ok s)
    (hedits : Relation.ReflTransGen Edit text.toList text'.toList) :
    ∃ s', ofText text' = .ok s' ∧ s'.root = s.root ∧ (s'.root == s.root) = true ∧
      ∀ {ε : Type} [EventLike ε] (event : ε), s'.accepts event = s.accepts event := by
  have hreads := (Expr.read_eq_ok_iff.1 (ofText_eq_ok_iff.1 h).2).edits hedits
  refine ⟨⟨text', s.root⟩, ofText_eq_ok_iff.2 ⟨rfl, Expr.read_eq_ok_iff.2 hreads⟩, rfl, ?_, ?_⟩
  · exact beq_self_eq_true s.root
  · intro ε _ event
    rfl

/-- A second equals sign, an ideographic space after the connective, capitals, and a tab next to the blank
before the word; the blanks in quotes stay as they are. -/
theorem ofText_edits_four :
    let text := "a=1||b contains \"  \""
    let e : Expr := .join .or (.clause ⟨none, "a", .equal, .ofText "1"⟩)
      (.clause ⟨none, "b", .contains, .ofText "  "⟩)
    ofText text = .ok ⟨text, e⟩ ∧
      ∃ s', ofText "a==1||\u3000b\t CONTAINS \"  \"" = .ok s' ∧ s'.root = e := by
  intro text e
  have hstands : ∀ {t : Token} {u v : List Char} {us vs : List Token}, Token.scan u = .ok us →
      Token.scan v = .ok vs → Token.scan (u ++ (t.spelling ++ v)) = .ok (us ++ t :: vs) →
      t.StandsBetween u v := fun hu hv h =>
    ⟨_, _, h, (scan_iff_cutInto.1 hu).1.laidOut, (scan_iff_cutInto.1 hv).1.laidOut⟩
  have hunnamed : ∀ name, (none : Option (List Char)) = some name → IsEventName name :=
    fun _ h => nomatch h
  let left (mark : List Char) : Clause.Division := ⟨none, ['a'], [], mark, [], ['1']⟩
  let right (word : List Char) : Clause.Division :=
    ⟨none, ['b'], [' '], word, [' '], ['"', ' ', ' ', '"']⟩
  let word := ['c', 'o', 'n', 't', 'a', 'i', 'n', 's']
  let capitals := ['C', 'O', 'N', 'T', 'A', 'I', 'N', 'S']
  have hleft : (left ['=']).Spells ⟨none, "a", .equal, .ofText "1"⟩ :=
    ⟨hunnamed, rfl, ⟨by decide, by decide⟩, rfl, .inl ⟨by decide, blank_nil, blank_nil⟩,
      .bare (List.cons_ne_nil _ _) (by decide)⟩
  have hright : (right word).Spells ⟨none, "b", .contains, .ofText "  "⟩ :=
    ⟨hunnamed, rfl, ⟨by decide, by decide⟩, rfl,
      .inr ⟨rfl, by decide, ⟨blank_space, by decide⟩, blank_space, by decide⟩,
      @Literal.Spelled.quoted [' ', ' '] (by decide)⟩
  let a := ['a', '=', '=', '1']
  have h₁ := @Edit.operator (left ['=']) _ _ [] ('|' :: '|' :: (right word).text)
    (@hstands _ _ _ [] [.connective .or, .clause (right word).text] rfl (by rfl) (by rfl)) hleft
    (.double rfl)
  have h₂ := @Edit.afterMark (.connective .or) a (right word).text ['\u3000'] trivial
    (@hstands _ _ _ [.clause a] [.clause (right word).text] (by rfl) (by rfl) (by rfl))
    (by unfold Blank; decide)
  have h₃ := @Edit.operator (right word) _ _ (a ++ ['|', '|', '\u3000']) []
    (@hstands _ _ _ [.clause a, .connective .or] [] (by rfl) rfl (by rfl)) hright
    (@Clause.Division.OperatorEdit.letterCase _ capitals (by decide) (by decide))
  have h₄ := @Edit.besideBlank (a ++ ['|', '|', '\u3000', 'b'])
    (' ' :: capitals ++ [' ', '"', ' ', ' ', '"']) ['\t'] rfl ⟨' ', by decide, .inr rfl⟩ (by unfold Blank; decide)
  have h : ofText "a=1||b contains \"  \"" = .ok ⟨text, e⟩ := ofText_eq_ok_iff.2 ⟨rfl, by rfl⟩
  have hedits : Relation.ReflTransGen Edit "a=1||b contains \"  \"".toList
      "a==1||\u3000b\t CONTAINS \"  \"".toList :=
    .tail (.tail (.tail (.single h₁) h₂) h₃) h₄
  obtain ⟨s', hs', hroot, -⟩ := ofText_edits h hedits
  exact ⟨h, s', hs', hroot⟩

end Sieve

end EventSieve
