import EventSieve.Proofs.Clause.Parts
import EventSieve.Proofs.Fallible
import EventSieve.Proofs.Offset.Slice

/-!
# Reading numbers and clauses by offsets

The readers of numbers and clauses as they go through the bytes of their texts: each part is cut out
at the offset where something was found, or a fixed number of bytes after it.

* `Number.readByOffsets_eq`: **numbers are read alike.**
* `Clause.cutEventNameByOffsets_eq`, `Clause.cutOperatorByOffsets_eq`: the parts of a clause that are
  cut at offsets.
* `Clause.readByOffsets_eq`: **clauses are read alike**, whether they are refused or not.
-/

namespace EventSieve

open Text

namespace Number

/-- The number of a sign and what follows it. -/
def readUnsigned? (negative : Bool) (body : List Char) : Option Number :=
  match afterHexMark? body with
  | some digits => readHex? negative digits
  | none =>
    match readInteger? negative body with
    | some v => some (.integer v)
    | none => (readDecimal? body).map fun d => .float (.ofDecimal negative d)

/-- The sign of a numeral, which its first byte tells, and what follows that byte or the whole. To ask
for the first byte of nothing stops the program, too. -/
def splitSignByOffsets (numeral : List Char) : Except Stop (Bool × List Char) :=
  match byteAt? numeral 0 with
  | none => .error (.badSlice numeral 0 1)
  | some byte =>
    if byte = '-'.toUInt8 then do
      let body ← slice numeral 1 (byteLength numeral)
      return (true, body)
    else if byte = '+'.toUInt8 then do
      let body ← slice numeral 1 (byteLength numeral)
      return (false, body)
    else return (false, numeral)

/-- The number that a text denotes, if it is a numeral, read by offsets. -/
def readByOffsets (text : List Char) : Except Stop (Option Number) :=
  let numeral := numeralOf text
  if numeral.isEmpty then .ok none
  else do
    let (negative, body) ← splitSignByOffsets numeral
    return readUnsigned? negative body

/-- **The first byte tells the sign**, and is the whole of it. -/
theorem splitSignByOffsets_eq {numeral : List Char} (h : numeral ≠ []) :
    splitSignByOffsets numeral = .ok (splitSign numeral) := by
  obtain ⟨c, s, rfl⟩ := List.exists_cons_of_ne_nil h
  obtain ⟨b, hat, hb⟩ := exists_byteAt?_char [] s c
  have hat' : byteAt? (c :: s) 0 = some b := hat
  have hrest : c.utf8Size = 1 → slice (c :: s) 1 (byteLength (c :: s)) = .ok s := by
    intro hc
    rw [← hc, ← byteLength_singleton]
    exact slice_suffix [c] s
  unfold splitSignByOffsets
  rw [hat']
  simp only [hb '-' (by decide), hb '+' (by decide)]
  by_cases hminus : c = '-'
  · subst hminus
    rw [if_pos rfl, hrest (by decide)]
    rfl
  · by_cases hplus : c = '+'
    · subst hplus
      rw [if_neg hminus, if_pos rfl, hrest (by decide)]
      rfl
    · rw [if_neg hminus, if_neg hplus]
      unfold splitSign
      split
      · next hs => exact absurd (List.cons.inj hs).1 hminus
      · next hs => exact absurd (List.cons.inj hs).1 hplus
      · rfl

/-- **A text is read by offsets as the number that it denotes.** -/
theorem readByOffsets_eq (text : List Char) : readByOffsets text = .ok (read? text) := by
  have hread : read? text =
      readUnsigned? (splitSign (numeralOf text)).1 (splitSign (numeralOf text)).2 := rfl
  rw [hread, readByOffsets]
  cases hn : numeralOf text with
  | nil => rfl
  | cons c s =>
    rw [splitSignByOffsets_eq (List.cons_ne_nil c s)]
    rfl

end Number

namespace Clause

/-- A clause's text split at offsets into the event name before `::`, if there is one, and the rest. -/
def cutEventNameByOffsets (clause : List Char) : Except Stop (Option (List Char) × List Char) := do
  let bad := Stop.refused (.badEventName (String.ofList clause))
  let headEnd := runEnd inEventName clause
  let head ← slice clause 0 headEnd
  match offsetWhere? ([':', ':'].isPrefixOf ·) head with
  | some offset =>
    if offset = 0 then throw bad
    else
      let rest ← slice clause (offset + 2) (byteLength clause)
      if rest.isEmpty || startsBlank rest then throw bad
      else
        let name ← slice clause 0 offset
        return (some name, rest)
  | none =>
    let tail ← slice clause headEnd (byteLength clause)
    if [':', ':'].isPrefixOf (trimStart tail) then throw bad else return (none, clause)

/-- The symbols of operators, the longer ones first. -/
def symbolTable : List (List Char × Operator) :=
  [(['=', '='], .equal), (['!', '='], .notEqual), (['<', '='], .lessEqual), (['>', '='], .greaterEqual),
    (['='], .equal), (['<'], .less), (['>'], .greater)]

/-- The symbol that a text starts with, and the text after it. -/
def cutSymbol? (text : List Char) : Option (Operator × List Char) :=
  symbolTable.findSome? fun entry => (text.dropPrefix? entry.1).map (entry.2, ·)

/-- The operator that a text starts with and the text after it. The word is looked for in as many
bytes as it has itself, if they are a part of the text. -/
def cutOperatorByOffsets (text : List Char) : Except Stop (Option (Operator × List Char)) :=
  match cutSymbol? text with
  | some cut => .ok (some cut)
  | none =>
    match part? text 0 (byteLength containsWord) with
    | none => .ok none
    | some word => do
      let rest ← slice text (byteLength containsWord) (byteLength text)
      return if word.map Char.toLower = containsWord ∧ startsBlank rest then some (.contains, rest)
        else none

/-- The clause that a text spells, read by offsets. The number of its literal is read with it. -/
def readByOffsets (text : List Char) : Except Stop Clause := do
  let clause := trim text
  if clause.isEmpty then throw (.refused .blank)
  let shown := String.ofList clause
  let (eventName, rest) ← cutEventNameByOffsets clause
  let propertyEnd := runEnd inProperty rest
  if propertyEnd = 0 then throw (.refused (.noProperty shown))
  let property ← slice rest 0 propertyEnd
  let afterProperty ← slice rest propertyEnd (byteLength rest)
  let some (operator, rest) ← cutOperatorByOffsets (trimStart afterProperty)
    | throw (.refused (.noOperator shown))
  let literal := trim rest
  if literal.isEmpty then throw (.refused (.noLiteral shown))
  let some text := literalText? literal | throw (.refused (.badLiteral shown))
  let _ ← Number.readByOffsets text
  return {
    eventName := eventName.map String.ofList
    property := String.ofList property
    operator
    literal := .ofText (String.ofList text) }

/-- **The event name is cut off at offsets** as it is cut off by characters. -/
theorem cutEventNameByOffsets_eq (clause : List Char) : cutEventNameByOffsets clause =
    match cutEventName? clause with
    | some cut => .ok cut
    | none => .error (.refused (.badEventName (String.ofList clause))) := by
  unfold cutEventNameByOffsets
  dsimp only
  rw [slice_runEnd, slice_runEnd_rest, cutEventName?_def, ok_bind, offsetWhere?_pair]
  cases hcut : splitAtPair ':' ':' (clause.takeWhile inEventName) with
  | none =>
    rw [Option.map_none, ok_bind]
    dsimp only
    split
    · rfl
    · rfl
  | some cut =>
    obtain ⟨name, rest⟩ := cut
    rw [Option.map_some]
    dsimp only
    -- the text is the name, the pair and what follows it
    have hclause : clause = name ++ [':', ':'] ++ (rest ++ clause.dropWhile inEventName) := by
      have hhead := (splitAtPair_eq_some_iff.1 hcut).1
      have hsplit := List.takeWhile_append_dropWhile (p := inEventName) (l := clause)
      rw [hhead] at hsplit
      simpa using hsplit.symm
    generalize rest ++ clause.dropWhile inEventName = r at hclause ⊢
    have hname : slice clause 0 (byteLength name) = .ok name := by
      rw [hclause, List.append_assoc]
      exact slice_prefix _ _
    have hrest : slice clause (byteLength name + 2) (byteLength clause) = .ok r := by
      have hpair : byteLength (name ++ [':', ':']) = byteLength name + 2 := byteLength_append _ _
      rw [hclause, ← hpair]
      exact slice_suffix _ _
    rw [hname, hrest, ok_bind, ok_bind]
    by_cases hne : name = []
    · rw [if_pos (byteLength_eq_zero_iff.2 hne), hne]
      rfl
    · rw [if_neg (mt byteLength_eq_zero_iff.1 hne), List.isEmpty_eq_false_iff.2 hne, Bool.false_or]
      split
      · rfl
      · rfl

theorem dropPrefix?_eq_none {s p : List Char} (h : ∀ t, s ≠ p ++ t) : s.dropPrefix? p = none := by
  cases hs : s.dropPrefix? p with
  | none => rfl
  | some t =>
    obtain ⟨p', hs', hp⟩ := List.dropPrefix?_eq_some_iff.1 hs
    rw [eq_of_beq hp] at hs'
    exact absurd hs' (h t)

theorem dropPrefix?_cons (a b : Char) (s p : List Char) :
    (a :: s).dropPrefix? (b :: p) = if a == b then s.dropPrefix? p else none := rfl

/-- **The longest symbol wins** when the longer ones are tried first. -/
theorem cutOperator?_eq (text : List Char) :
    cutOperator? text = (cutSymbol? text).or (cutContains? text) := by
  unfold cutOperator?
  split
  case h_1 | h_2 | h_3 | h_4 => simp [cutSymbol?, symbolTable, dropPrefix?_cons]
  case h_5 s hs | h_6 s hs | h_7 s hs =>
    have hnone : s.dropPrefix? ['='] = none := dropPrefix?_eq_none hs
    simp [cutSymbol?, symbolTable, dropPrefix?_cons, hnone]
  case h_8 h1 h2 h3 h4 h5 h6 h7 =>
    have hnone : cutSymbol? text = none := by
      refine List.findSome?_eq_none_iff.2 fun entry hentry => Option.map_eq_none_iff.2 ?_
      refine dropPrefix?_eq_none fun t ht => ?_
      simp only [symbolTable, List.mem_cons, List.not_mem_nil, or_false] at hentry
      rcases hentry with rfl | rfl | rfl | rfl | rfl | rfl | rfl
      exacts [h1 t ht, h2 t ht, h3 t ht, h4 t ht, h5 t ht, h6 t ht, h7 t ht]
    rw [hnone, Option.none_or]

theorem utf8Size_of_toLower {c : Char} (h : c.toLower.utf8Size = 1) : c.utf8Size = 1 := by
  unfold Char.toLower at h
  split at h
  · next hc => exact Char.utf8Size_eq_one_iff.2 (UInt32.le_trans hc.2 (by decide))
  · exact h

/-- The operator word in any letter case takes as many bytes as in lower case. -/
theorem byteLength_word {s : List Char} (h : s.map Char.toLower = containsWord) :
    byteLength s = byteLength containsWord := by
  have hword : ∀ c ∈ containsWord, c.utf8Size = 1 := by decide
  rw [byteLength_eq_length hword, byteLength_eq_length, ← h, List.length_map]
  intro c hc
  refine utf8Size_of_toLower (hword _ ?_)
  rw [← h]
  exact List.mem_map_of_mem hc

/-- The operator word, where it is cut off, is what the first bytes hold. -/
theorem part?_of_cutContains? {text a : List Char} {op : Operator} (h : cutContains? text = some (op, a)) :
    ∃ s, part? text 0 (byteLength containsWord) = some s ∧ text = s ++ a ∧
      s.map Char.toLower = containsWord ∧ startsBlank a = true := by
  obtain ⟨-, ha, s, rfl, hs⟩ := cutContains?_eq_some_iff.1 h
  exact ⟨s, by rw [← byteLength_word hs, part?_prefix], rfl, hs, ha⟩

/-- **The operator is cut off at offsets** as it is cut off by characters. -/
theorem cutOperatorByOffsets_eq (text : List Char) :
    cutOperatorByOffsets text = .ok (cutOperator? text) := by
  rw [cutOperator?_eq, cutOperatorByOffsets]
  cases cutSymbol? text with
  | some cut => rfl
  | none =>
    rw [Option.none_or]
    dsimp only
    cases hpart : part? text 0 (byteLength containsWord) with
    | none =>
      cases hc : cutContains? text with
      | none => rfl
      | some cut =>
        obtain ⟨s, hs, -⟩ := part?_of_cutContains? hc
        rw [hpart] at hs
        cases hs
    | some word =>
      obtain ⟨rest, rfl, hlength⟩ := part?_zero_eq_some_iff.1 hpart
      have hrest : slice (word ++ rest) (byteLength containsWord) (byteLength (word ++ rest)) =
          .ok rest := by
        rw [hlength, slice_suffix]
      dsimp only
      rw [hrest, ok_bind]
      split
      · next hcond =>
        rw [cutContains?_eq_some_iff.2 ⟨rfl, hcond.2, word, rfl, hcond.1⟩]
        rfl
      · next hcond =>
        cases hc : cutContains? (word ++ rest) with
        | none => rfl
        | some cut =>
          obtain ⟨s, hs, htext, hlower, hblank⟩ := part?_of_cutContains? hc
          rw [hpart, Option.some_inj] at hs
          subst hs
          rw [List.append_cancel_left htext] at hcond
          exact absurd ⟨hlower, hblank⟩ hcond

/-- **A text is read by offsets as the clause that it spells**, or refused for the same reason. -/
theorem readByOffsets_eq (text : List Char) : readByOffsets text = (read text).mapError .refused := by
  unfold readByOffsets read
  dsimp only
  split
  · rfl
  · unfold readTrimmed
    rw [cutEventNameByOffsets_eq]
    cases cutEventName? (trim text) with
    | none => rfl
    | some cut =>
      obtain ⟨name, rest⟩ := cut
      dsimp only
      rw [ok_bind, List.span_eq_takeWhile_dropWhile, slice_runEnd, slice_runEnd_rest, runEnd_eq]
      dsimp only
      by_cases hproperty : rest.takeWhile inProperty = []
      · rw [if_pos (byteLength_eq_zero_iff.2 hproperty), hproperty]
        rfl
      rw [if_neg (mt byteLength_eq_zero_iff.1 hproperty), if_neg (mt List.isEmpty_iff.1 hproperty)]
      rw [ok_bind, ok_bind, cutOperatorByOffsets_eq, ok_bind]
      cases cutOperator? (trimStart (rest.dropWhile inProperty)) with
      | none => rfl
      | some cut =>
        obtain ⟨operator, remainder⟩ := cut
        dsimp only
        split
        · rfl
        · cases literalText? (trim remainder) with
          | none => rfl
          | some literal =>
            dsimp only
            rw [Number.readByOffsets_eq]
            rfl

end Clause

end EventSieve
