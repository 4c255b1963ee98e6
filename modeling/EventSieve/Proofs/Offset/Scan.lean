import EventSieve.Proofs.Offset.Slice
import EventSieve.Proofs.Token.Moves

/-!
# Cutting an expression by offsets

The scan over the bytes of a text. It keeps the offset after the last token that is no clause, and
cuts out the text between that offset and its own place when it meets the next such token or the end.
A connective is recognised at its first byte, by looking at the byte after it.

* `ByteScan`, `ByteScan.step`, `Token.scanByOffsets`: the scan.
* `ByteScan.scanFrom_inner`: the bytes inside a character change nothing.
* `ByteScan.Follows`: where a scan over the characters of the text and one over its bytes agree;
  `Follows.step_or_strides`: they agree again after the next character, or the next connective.
* `ByteScan.Follows.scanFrom_eq`: **from there on both end alike**, over any rest of the text.
* `Token.scanByOffsets_eq`: **the scan over bytes cuts every text as the scan over characters does**,
  and never stops at a slice.
-/

namespace EventSieve

open Text

/-- What scanning the bytes of a text up to an offset has found. -/
structure ByteScan where
  offset : Nat
  /-- How many parentheses are open. -/
  depth : Nat
  /-- Where the open quote stands, if one is open. -/
  quote : Option Nat
  /-- Where the text after the last token that is no clause starts. -/
  clauseStart : Nat
  /-- The tokens so far, last first. -/
  found : List Token

namespace ByteScan

/-- Before the first byte. -/
def start : ByteScan := ⟨0, 0, none, 0, []⟩

/-- One more byte, kept for the clause that is pending. -/
def keep (s : ByteScan) (quote : Option Nat) : ByteScan := { s with offset := s.offset + 1, quote }

/-- A token of so many bytes that ends the pending clause. -/
def emit (text : List Char) (s : ByteScan) (token : Token) (width depth : Nat) :
    Except Stop ByteScan := do
  let pending ← slice text s.clauseStart s.offset
  return { s with
    offset := s.offset + width
    depth
    clauseStart := s.offset + width
    found := token :: Scan.foundWith pending.reverse s.found }

/-- The connective that starts with a byte outside quotes. -/
def connectiveAt? (text : List Char) (offset : Nat) (byte : UInt8) : Option Connective :=
  [Connective.and, .or].find? fun k =>
    byte == k.char.toUInt8 && byteAt? text (offset + 1) == some k.char.toUInt8

/-- One more token, or one more byte of a clause. -/
def step (text : List Char) (s : ByteScan) (byte : UInt8) : Except Stop ByteScan :=
  if s.quote.isSome then .ok (s.keep (if byte = '"'.toUInt8 then none else s.quote))
  else if byte = '"'.toUInt8 then .ok (s.keep (some s.offset))
  else if byte = '('.toUInt8 then s.emit text .opening 1 (s.depth + 1)
  else if byte = ')'.toUInt8 then
    if s.depth = 0 then .error (.refused (.unbalanced s.offset))
    else s.emit text .closing 1 (s.depth - 1)
  else
    match connectiveAt? text s.offset byte with
    | some k => s.emit text (.connective k) 2 s.depth
    | none => .ok (s.keep none)

variable {text u v before rest : List Char} {s t : ByteScan} {r : Scan} {c m : Char} {b : UInt8}

theorem offset_lt_of_emit {token : Token} {width depth : Nat} (hw : 0 < width)
    (h : s.emit text token width depth = .ok t) : s.offset < t.offset := by
  obtain ⟨pending, -, ht⟩ := bind_eq_ok.1 h
  cases ht
  exact Nat.lt_add_of_pos_right hw

/-- Every step goes on in the text. -/
theorem offset_lt_of_step (h : s.step text b = .ok t) : s.offset < t.offset := by
  have hkeep : ∀ q, s.offset < (s.keep q).offset := fun q => Nat.lt_succ_self _
  unfold step at h
  split at h
  · cases h
    exact hkeep _
  split at h
  · cases h
    exact hkeep _
  split at h
  · exact offset_lt_of_emit Nat.one_pos h
  split at h
  · split at h
    · cases h
    · exact offset_lt_of_emit Nat.one_pos h
  split at h
  · exact offset_lt_of_emit Nat.two_pos h
  · cases h
    exact hkeep _

/-- The scan from a state on, up to the end of the text. -/
def run (text : List Char) (s : ByteScan) : Except Stop ByteScan :=
  match _hb : byteAt? text s.offset with
  | none => .ok s
  | some byte =>
    match _hs : s.step text byte with
    | .error stop => .error stop
    | .ok t => run text t
termination_by byteLength text - s.offset
decreasing_by
  have hlt := offset_lt_of_step _hs
  have hin : ¬ byteLength text ≤ s.offset := fun hle => by
    rw [byteAt?_eq_none_iff.2 hle] at _hb
    cases _hb
  omega

/-- The tokens of the whole text, once it has ended. -/
def tokens (text : List Char) (s : ByteScan) : Except Stop (List Token) :=
  match s.quote with
  | some offset => .error (.refused (.openQuote offset))
  | none =>
    if s.depth ≠ 0 then .error (.refused (.unbalanced (byteLength text)))
    else do
      let pending ← slice text s.clauseStart (byteLength text)
      return (Scan.foundWith pending.reverse s.found).reverse

/-- The tokens of a text whose scan has come as far as a state. -/
def scanFrom (text : List Char) (s : ByteScan) : Except Stop (List Token) := do
  let t ← s.run text
  t.tokens text

theorem scanFrom_end (hb : byteAt? text s.offset = none) : scanFrom text s = s.tokens text := by
  have hrun : s.run text = .ok s := by
    rw [run]
    split
    · rfl
    · next hb' =>
      rw [hb] at hb'
      cases hb'
  rw [scanFrom, hrun]
  rfl

/-- A scan goes on as its next step does. -/
theorem scanFrom_byte (hb : byteAt? text s.offset = some b) :
    scanFrom text s = s.step text b >>= scanFrom text := by
  have hrun : s.run text = s.step text b >>= run text := by
    rw [run]
    split
    · next hb' =>
      rw [hb] at hb'
      cases hb'
    · next b' hb' =>
      rw [hb, Option.some_inj] at hb'
      subst hb'
      split
      · next stop hs =>
        rw [hs]
        rfl
      · next t hs =>
        rw [hs]
        rfl
  rw [scanFrom, hrun, bind_assoc]
  rfl

theorem utf8Size_char (k : Connective) : k.char.utf8Size = 1 := by
  cases k <;> decide

/-- A connective starts where its character stands twice. -/
theorem connectiveAt?_eq_some_iff (hb : ∀ m : Char, m.utf8Size = 1 → (b = m.toUInt8 ↔ c = m))
    {k : Connective} :
    connectiveAt? (u ++ c :: v) (byteLength u) b = some k ↔ c = k.char ∧ v.head? = some k.char := by
  have htest : ∀ k : Connective, (b == k.char.toUInt8 &&
      byteAt? (u ++ c :: v) (byteLength u + 1) == some k.char.toUInt8) = true ↔
        c = k.char ∧ v.head? = some k.char := by
    intro k
    rw [Bool.and_eq_true, beq_iff_eq, beq_iff_eq, hb _ (utf8Size_char k)]
    refine and_congr_right ?_
    rintro rfl
    have hnext : byteAt? (u ++ k.char :: v) (byteLength u + 1) = byteAt? v 0 := by
      rw [byteAt?_append, ← byteAt?_append_zero [k.char] v, byteLength_singleton, utf8Size_char]
      rfl
    rw [hnext, byteAt?_zero_eq_iff (utf8Size_char k)]
  unfold connectiveAt?
  constructor
  · intro h
    have hk := List.find?_some h
    exact (htest k).1 hk
  · intro h
    cases hf : List.find? _ _ with
    | none => exact absurd ((htest k).2 h) (List.find?_eq_none.1 hf k (by cases k <;> simp))
    | some k' =>
      -- the two connectives have different characters
      have htest' := List.find?_some hf
      have hk' := ((htest k').1 htest').1
      rw [h.1] at hk'
      rw [Option.some_inj, ← Option.some_inj, ← Scan.connective?_char, ← hk', Scan.connective?_char]

/-- A byte that means nothing is kept. -/
theorem step_keep (hb : ∀ m : Char, m.utf8Size = 1 → b ≠ m.toUInt8) :
    s.step text b = .ok (s.keep s.quote) := by
  have hk : connectiveAt? text s.offset b = none := by
    refine List.find?_eq_none.2 fun k _ hall => hb k.char (utf8Size_char k) ?_
    rw [Bool.and_eq_true, beq_iff_eq] at hall
    exact hall.1
  unfold step
  rw [if_neg (hb '"' (by decide)), if_neg (hb '"' (by decide)), if_neg (hb '(' (by decide)),
    if_neg (hb ')' (by decide)), hk]
  cases s.quote with
  | none => rfl
  | some i => rfl

/-- The bytes inside a character are kept. -/
theorem scanFrom_inner {n i : Nat} (hi : 0 < i) (hn : i + n = c.utf8Size)
    (hs : s.offset = byteLength u + i) :
    scanFrom (u ++ c :: v) s = scanFrom (u ++ c :: v) { s with offset := s.offset + n } := by
  induction n generalizing i s with
  | zero => rfl
  | succ n ih =>
    have hin : i < byteLength (c :: v) := by
      rw [byteLength_cons]
      omega
    obtain ⟨b, hb⟩ := exists_byteAt?_of_lt hin
    have hat : byteAt? (u ++ c :: v) s.offset = some b := by rw [hs, byteAt?_append, hb]
    rw [scanFrom_byte hat, step_keep fun m hm => ne_of_inner hm hb hi (by omega)]
    refine (ih (s := s.keep s.quote) (i := i + 1) (by omega) (by omega) ?_).trans ?_
    · rw [keep, hs, Nat.add_assoc]
    · simp only [keep, Nat.add_assoc, Nat.add_comm 1 n]

/-- A character whose first byte is kept is kept whole. -/
theorem scanFrom_keep {q : Option Nat} (hs : s.offset = byteLength u)
    (hb : byteAt? (u ++ c :: v) s.offset = some b) (hstep : s.step (u ++ c :: v) b = .ok (s.keep q)) :
    scanFrom (u ++ c :: v) s =
      scanFrom (u ++ c :: v) { s with offset := s.offset + c.utf8Size, quote := q } := by
  have hpos := c.utf8Size_pos
  rw [scanFrom_byte hb, hstep]
  refine (scanFrom_inner (s := s.keep q) (n := c.utf8Size - 1) Nat.one_pos (by omega) ?_).trans ?_
  · rw [keep, hs]
  · simp only [keep, Nat.add_assoc, Nat.add_sub_cancel' hpos]

/-- The scan over bytes that stands where a scan over characters does, when `before` is the text up to
the last token that is no clause. -/
def of (before : List Char) (r : Scan) : ByteScan :=
  ⟨r.offset, r.depth, r.quote, byteLength before, r.found⟩

@[simp] theorem of_offset (before : List Char) (r : Scan) : (of before r).offset = r.offset := rfl

@[simp] theorem of_depth (before : List Char) (r : Scan) : (of before r).depth = r.depth := rfl

@[simp] theorem of_quote (before : List Char) (r : Scan) : (of before r).quote = r.quote := rfl

/-- A scan over the characters of a text has come to `rest`, and no connective is half passed: the
scan over bytes would have found it whole. -/
structure Follows (text before rest : List Char) (r : Scan) : Prop where
  text_eq : text = before ++ r.pending.reverse ++ rest
  offset_eq : r.offset = byteLength (before ++ r.pending.reverse)
  unarmed : r.quote = none → ∀ k : Connective, r.pending.head? = some k.char →
    rest.head? ≠ some k.char

theorem follows_start (text : List Char) : Follows text [] text .start :=
  ⟨rfl, rfl, fun _ _ h => nomatch h⟩

/-- Both scans after a character that is kept. -/
theorem Follows.keep (h : Follows text before (c :: rest) r) {q : Option Nat}
    (hunarmed : q = none → ∀ k : Connective, c = k.char → rest.head? ≠ some k.char) :
    Follows text before rest (r.keep c q) := by
  refine ⟨?_, ?_, fun hq k hk => hunarmed hq k (Option.some_inj.1 hk)⟩
  · rw [h.text_eq]
    simp [Scan.keep]
  · simp only [Scan.keep, List.reverse_cons, ← List.append_assoc, byteLength_concat, ← h.offset_eq]

/-- Both scans after a token that is no clause. -/
theorem Follows.emit {spelling : List Char} (h : Follows text before (spelling ++ rest) r)
    (token : Token) (depth : Nat) :
    Follows text (before ++ r.pending.reverse ++ spelling) rest
      ⟨r.offset + byteLength spelling, depth, r.quote, [], token :: Scan.foundWith r.pending r.found⟩ := by
  refine ⟨?_, ?_, fun _ _ hk => nomatch hk⟩
  · rw [h.text_eq]
    simp
  · rw [h.offset_eq, ← byteLength_append]
    simp

/-- The scan over bytes cuts out what the scan over characters has pending. -/
theorem Follows.emit_eq {spelling : List Char} {token : Token} {depth width : Nat}
    (h : Follows text before rest r) (hw : byteLength spelling = width) :
    (of before r).emit text token width depth = .ok (of (before ++ r.pending.reverse ++ spelling)
      ⟨r.offset + width, depth, r.quote, [], token :: Scan.foundWith r.pending r.found⟩) := by
  have hslice : slice text (byteLength before) r.offset = .ok r.pending.reverse := by
    rw [h.text_eq, h.offset_eq, slice_append]
  have hstart : r.offset + width = byteLength (before ++ r.pending.reverse ++ spelling) := by
    rw [byteLength_append, ← h.offset_eq, hw]
  unfold ByteScan.emit of
  rw [hslice, ← hstart]
  show Except.ok _ = _
  rw [List.reverse_reverse]

/-- **At the end of the text both scans answer alike.** -/
theorem Follows.tokens_eq (h : Follows text before [] r) :
    (of before r).tokens text = r.tokens.mapError .refused := by
  have htext : text = before ++ r.pending.reverse := by rw [h.text_eq, List.append_nil]
  have hslice : slice text (byteLength before) (byteLength text) = .ok r.pending.reverse := by
    rw [htext, slice_suffix]
  unfold ByteScan.tokens Scan.tokens of
  dsimp only
  cases r.quote with
  | some i => rfl
  | none =>
    dsimp only
    split
    · rw [h.offset_eq, ← htext]
      rfl
    · rw [hslice]
      show Except.ok _ = _
      rw [List.reverse_reverse]
      rfl

/-- A step over bytes asks of a character's first byte what a step over characters asks of it. -/
theorem step_char (text : List Char) (s : ByteScan)
    (hb : ∀ m : Char, m.utf8Size = 1 → (b = m.toUInt8 ↔ c = m)) : s.step text b =
    if s.quote.isSome then .ok (s.keep (if c = '"' then none else s.quote))
    else if c = '"' then .ok (s.keep (some s.offset))
    else if c = '(' then s.emit text .opening 1 (s.depth + 1)
    else if c = ')' then
      if s.depth = 0 then .error (.refused (.unbalanced s.offset))
      else s.emit text .closing 1 (s.depth - 1)
    else
      match connectiveAt? text s.offset b with
      | some k => s.emit text (.connective k) 2 s.depth
      | none => .ok (s.keep none) := by
  simp only [step, hb '"' (by decide), hb '(' (by decide), hb ')' (by decide)]

/-- Both scans pass a next stretch of the text, and agree again after it. -/
def Strides (text before rest : List Char) (r : Scan) : Prop :=
  ∃ before' stretch rest' r', rest = stretch ++ rest' ∧ stretch ≠ [] ∧ r.run stretch = .ok r' ∧
    Follows text before' rest' r' ∧ scanFrom text (of before r) = scanFrom text (of before' r')

/-- They pass a character that both keep. -/
theorem Follows.strides_keep {q : Option Nat} (h : Follows text before (c :: rest) r)
    (hb : byteAt? text r.offset = some b) (hbyte : (of before r).step text b = .ok ((of before r).keep q))
    (hs : r.step c = .ok (r.keep c q))
    (hunarmed : q = none → ∀ k : Connective, c = k.char → rest.head? ≠ some k.char) :
    Strides text before (c :: rest) r := by
  refine ⟨before, [c], rest, r.keep c q, rfl, List.cons_ne_nil _ _, foldlM_singleton_eq_ok.2 hs,
    h.keep hunarmed, ?_⟩
  rw [h.text_eq] at hb hbyte ⊢
  exact scanFrom_keep h.offset_eq hb hbyte

/-- They pass a token that is no clause. -/
theorem Follows.strides_emit (spelling : List Char) {token : Token} {depth width : Nat}
    (h : Follows text before (spelling ++ rest) r) (hne : spelling ≠ []) (hw : byteLength spelling = width)
    (hb : byteAt? text r.offset = some b)
    (hbyte : (of before r).step text b = (of before r).emit text token width depth)
    (hs : r.run spelling =
      .ok ⟨r.offset + width, depth, r.quote, [], token :: Scan.foundWith r.pending r.found⟩) :
    Strides text before (spelling ++ rest) r := by
  have hafter := h.emit token depth
  rw [hw] at hafter
  refine ⟨_, spelling, rest, _, rfl, hne, hs, hafter, ?_⟩
  rw [scanFrom_byte (s := of before r) hb, hbyte, h.emit_eq hw]
  rfl

/-- Outside quotes they pass a character that is kept, or together with it the one that makes it a
connective. -/
theorem Follows.strides_plain (h : Follows text before (c :: rest) r) (hq : r.quote = none)
    (hb : byteAt? text r.offset = some b)
    (hconnective : ∀ k, connectiveAt? text r.offset b = some k ↔ c = k.char ∧ rest.head? = some k.char)
    (hbyte : (of before r).step text b = match connectiveAt? text r.offset b with
      | some k => (of before r).emit text (.connective k) 2 r.depth
      | none => .ok ((of before r).keep none))
    (hs : r.step c = .ok (r.keep c none)) : Strides text before (c :: rest) r := by
  cases hpair : connectiveAt? text r.offset b with
  | none =>
    rw [hpair] at hbyte
    refine h.strides_keep hb hbyte hs fun _ k hc hhead => ?_
    rw [(hconnective k).2 ⟨hc, hhead⟩] at hpair
    cases hpair
  | some k =>
    obtain ⟨rfl, hhead⟩ := (hconnective k).1 hpair
    obtain ⟨rest, rfl⟩ := List.head?_eq_some_iff.1 hhead
    rw [hpair] at hbyte
    have hsecond : (r.keep k.char none).step k.char =
        .ok ((r.keep k.char none).emit k.char r.pending (.connective k) r.depth) :=
      Scan.step_eq_ok_iff.2 (.connective rfl rfl)
    refine h.strides_emit [k.char, k.char] (List.cons_ne_nil _ _) ?_ hb hbyte ?_
    · rw [byteLength_cons, byteLength_singleton, utf8Size_char]
    · refine (foldlM_cons_eq_ok.2 ⟨_, hs, foldlM_singleton_eq_ok.2 hsecond⟩).trans ?_
      simp only [Scan.keep, Scan.emit, utf8Size_char, hq, Nat.add_assoc]

/-- What the scan over bytes makes of the next character: it ends at a parenthesis without a partner
as the scan over characters does, or both go on. -/
theorem Follows.step_or_strides (h : Follows text before (c :: rest) r) :
    (∃ x, r.step c = .error x ∧ scanFrom text (of before r) = .error (.refused x)) ∨
      Strides text before (c :: rest) r := by
  obtain ⟨b, hat, hb⟩ := exists_byteAt?_char (before ++ r.pending.reverse) rest c
  have hconnective := fun k => connectiveAt?_eq_some_iff (u := before ++ r.pending.reverse) (v := rest)
    (k := k) hb
  rw [← h.text_eq, ← h.offset_eq] at hat
  rw [← h.text_eq, ← h.offset_eq] at hconnective
  have hbyte := step_char text (of before r) hb
  rw [of_quote, of_depth, of_offset] at hbyte
  cases hs : r.step c with
  | error x =>
    obtain ⟨rfl, hq, hd, rfl⟩ := Scan.step_eq_error_iff.1 hs
    refine .inl ⟨_, rfl, ?_⟩
    rw [scanFrom_byte (s := of before r) hat, hbyte, hq, hd]
    rfl
  | ok t =>
    right
    cases Scan.step_eq_ok_iff.1 hs with
    | quoted hq =>
      refine h.strides_keep hat ?_ hs fun hnone k hk => ?_
      · rw [hbyte, if_pos (Option.isSome_iff_ne_none.2 hq)]
      · rw [if_neg (hk ▸ (Scan.connective_char_ne k).1)] at hnone
        exact absurd hnone hq
    | quote hq =>
      refine h.strides_keep hat ?_ hs fun hnone => nomatch hnone
      rw [hbyte, hq]
      rfl
    | opening hq =>
      refine h.strides_emit ['('] (List.cons_ne_nil _ _) rfl hat ?_
        (foldlM_singleton_eq_ok.2 hs)
      rw [hbyte, hq]
      rfl
    | closing hq hd =>
      refine h.strides_emit [')'] (List.cons_ne_nil _ _) rfl hat ?_
        (foldlM_singleton_eq_ok.2 hs)
      rw [hbyte, hq, if_neg hd]
      rfl
    | @connective k pending hq hp =>
      -- its first character would have been passed together with this one
      exact absurd rfl (h.unarmed hq k (by rw [hp]; rfl))
    | plain hq h1 h2 h3 hk =>
      rw [hq, if_neg (by decide), if_neg h1, if_neg h2, if_neg h3] at hbyte
      exact h.strides_plain hq hat hconnective hbyte hs

/-- **From a place on which both scans agree they end alike**, whatever follows. -/
theorem Follows.scanFrom_eq (h : Follows text before rest r) :
    scanFrom text (of before r) = (r.run rest >>= Scan.tokens).mapError .refused := by
  induction hn : rest.length using Nat.strong_induction_on generalizing before rest r with
  | _ n ih =>
  cases rest with
  | nil =>
    rw [scanFrom_end, h.tokens_eq]
    · rfl
    · rw [byteAt?_eq_none_iff, h.text_eq, List.append_nil]
      exact h.offset_eq.ge
  | cons c rest =>
    rcases h.step_or_strides with ⟨x, hx, hscan⟩ | ⟨before', stretch, rest', r', hrest, hne, hrun, h', hscan⟩
    · rw [hscan, Scan.run, List.foldlM_cons, hx]
      rfl
    · have hlen := congrArg List.length hrest
      have hpos := List.length_pos_iff.2 hne
      rw [List.length_append] at hlen
      have hrun' : r.run (stretch ++ rest') = r'.run rest' := by
        unfold Scan.run at hrun ⊢
        rw [List.foldlM_append, hrun]
        rfl
      rw [hscan, ih _ (by omega) h' rfl, hrest, hrun']

end ByteScan

/-- The tokens of a text, found by offsets. -/
def Token.scanByOffsets (text : List Char) : Except Stop (List Token) :=
  ByteScan.scanFrom text .start

/-- **The scan over bytes** cuts every text as the scan over characters does. -/
theorem Token.scanByOffsets_eq (text : List Char) :
    Token.scanByOffsets text = (Token.scan text).mapError .refused :=
  (ByteScan.follows_start text).scanFrom_eq

end EventSieve
