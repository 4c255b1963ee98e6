import EventSieve.Proofs.Binary64.Floor
import EventSieve.Proofs.Expr.Equality
import EventSieve.Proofs.Expr.Influence
import EventSieve.Proofs.Number.Integers
import EventSieve.Proofs.Number.Value

/-!
# The order of numbers

* `Number.compareIntegerFloat_eq`: **an integer is placed among the doubles without rounding it**: the floor
  of a double in range is an integer, and the double is past it only by a part of one.
* `Number.compare?_eq`: numbers are compared by their exact values.
* `Operator.relates_iff`: a numeric operator relates two texts as it orders their values.
* `Number.compare?_exact`: **the order of numbers is that of their exact values**; it is the same seen from
  either side, total and transitive, and relational clauses are monotone in their literal.
-/

namespace EventSieve

variable {a b c : Number} {x y : ExtendedRat} {op : Operator} {text : List Char} {m : ℤ}

namespace Number

/-- The numbers that there are: integers of 128 bits, and all doubles. -/
def InRange : Number → Prop
  | .integer v => fitsWord v = true
  | .float _ => True

/-- Whether a number is a NaN. -/
def isNaN : Number → Bool
  | .integer _ => false
  | .float x => x.isNaN

/-- A number is at most another one, as the operator `<=` finds. -/
def AtMost (a b : Number) : Prop := (a.compare? b).any Operator.lessEqual.admits = true

/-- The integers of 128 bits, by the limit. -/
theorem fitsWord_bounds : fitsWord m = true ↔ -(wordLimit : ℤ) ≤ m ∧ m < wordLimit := by
  unfold fitsWord
  rw [Bool.and_eq_true, decide_eq_true_eq, decide_eq_true_eq]

theorem fitsWord_of_lt {n : ℕ} (negative : Bool) (h : n < wordLimit) :
    fitsWord (signed negative n) = true := by
  rw [fitsWord_bounds]
  unfold signed
  split
  · omega
  · omega

/-- **What a text is read as is in range.** -/
theorem inRange_of_read? {n : Number} (h : read? text = some n) : n.InRange := by
  obtain ⟨negative, body, -, ⟨_, m, -, -, hlt, rfl⟩ | ⟨w, hw, rfl⟩ | ⟨d, -, rfl⟩⟩ := read?_cases h
  · exact fitsWord_of_lt negative hlt
  · exact (readInteger?_spec hw).2.2.2
  · trivial

open Binary64 (Extent)

/-- The ends of the 128-bit integers, as doubles. -/
theorem extent?_floatLimit :
    floatLimit.extent? = some (.at (wordLimit * unitsInOne)) ∧
    floatLimit.neg.extent? = some (.at (-wordLimit * unitsInOne)) := by
  constructor
  · decide +kernel
  · decide +kernel

/-- A whole double in range is its own conversion to an integer. -/
theorem toWord_of_extent? {x : Binary64} {n : ℤ} (hx : x.extent? = some (.at (n * unitsInOne)))
    (hn : fitsWord n = true) : toWord x = n := by
  obtain ⟨hlow, hhigh⟩ := fitsWord_bounds.1 hn
  have hne : (unitsInOne : ℤ) ≠ 0 := by exact_mod_cast unitsInOne_pos.ne'
  unfold toWord
  rw [hx]
  dsimp only
  rw [Int.mul_tdiv_cancel n hne]
  omega

/-- **A floor decides the order**, and where it is the same integer what it leaves out does. -/
theorem compare_of_floor {n u d : ℤ} (hd : 0 < d) (hlow : n * d ≤ u) (hhigh : u < (n + 1) * d) :
    (match compare m n with
      | .eq => if (some (compare u (n * d))).any Ordering.isGT then some Ordering.lt else some .eq
      | order => some order) = some (compare (m * d) u) := by
  rcases lt_trichotomy m n with h | rfl | h
  · have hlt : m * d < u := lt_of_lt_of_le (mul_lt_mul_of_pos_right h hd) hlow
    rw [compare_lt_iff_lt.2 h, compare_lt_iff_lt.2 hlt]
  · rw [compare_eq_iff_eq.2 rfl]
    rcases lt_or_eq_of_le hlow with hlt | heq
    · rw [compare_gt_iff_gt.2 hlt, compare_lt_iff_lt.2 hlt]
      rfl
    · rw [heq, compare_eq_iff_eq.2 rfl]
      rfl
  · have hgt : u < m * d := lt_of_lt_of_le hhigh (mul_le_mul_of_nonneg_right h hd.le)
    rw [compare_gt_iff_gt.2 h, compare_gt_iff_gt.2 hgt]

/-- A floor is in the range if the double is. -/
theorem fitsWord_of_floor {n u d : ℤ} (hd : 0 < d) (hlow : n * d ≤ u) (hhigh : u < (n + 1) * d)
    (hmin : -wordLimit * d ≤ u) (hmax : u < wordLimit * d) : fitsWord n = true := by
  have hbelow := lt_of_mul_lt_mul_right (lt_of_le_of_lt hlow hmax) hd.le
  have habove := lt_of_mul_lt_mul_right (lt_of_le_of_lt hmin hhigh) hd.le
  rw [fitsWord_bounds]
  omega

theorem compare?_of_isFinite {x y : Binary64} {v : ℤ} (hx : x.isFinite = true)
    (hy : y.extent? = some (.at v)) : x.compare? y = some (compare x.units v) := by
  unfold Binary64.compare?
  rw [Binary64.extent?_of_isFinite hx, hy]
  rfl

/-- A finite double is past the range, before it, or its floor is in it. -/
theorem compareIntegerFloat_of_isFinite {x : Binary64} (hm : fitsWord m = true)
    (hfinite : x.isFinite = true) :
    compareIntegerFloat m x = some (compare (m * unitsInOne) x.units) := by
  obtain ⟨hlow, hhigh⟩ := fitsWord_bounds.1 hm
  obtain ⟨hlimit, hlimit'⟩ := extent?_floatLimit
  obtain ⟨n, hfloor, hn, hn'⟩ := Binary64.floor_spec hfinite
  have hpos : (0 : ℤ) < unitsInOne := by exact_mod_cast unitsInOne_pos
  have hnan : ¬ x.isNaN = true :=
    fun h => Nat.lt_asymm (of_decide_eq_true hfinite) (of_decide_eq_true h)
  unfold compareIntegerFloat
  rw [if_neg hnan, compare?_of_isFinite hfinite hlimit, compare?_of_isFinite hfinite hlimit',
    compare?_of_isFinite hfinite hfloor]
  set u := x.units
  have hlarge : Option.any Ordering.isGE (some (compare u (wordLimit * unitsInOne))) = true ↔
      wordLimit * unitsInOne ≤ u := Int.isGE_compare
  have hsmall : Option.any Ordering.isLT (some (compare u (-wordLimit * unitsInOne))) = true ↔
      u < -wordLimit * unitsInOne := Ordering.isLT_iff_eq_lt.trans compare_lt_iff_lt
  by_cases h : wordLimit * unitsInOne ≤ u
  · -- past the end of the range
    have hlt : m * unitsInOne < u := lt_of_lt_of_le (mul_lt_mul_of_pos_right hhigh hpos) h
    rw [if_pos (hlarge.2 h)]
    exact congrArg some (compare_lt_iff_lt.2 hlt).symm
  rw [if_neg (mt hlarge.1 h)]
  by_cases h' : u < -wordLimit * unitsInOne
  · -- before the start of the range
    have hgt : u < m * unitsInOne := lt_of_lt_of_le h' (mul_le_mul_of_nonneg_right hlow hpos.le)
    rw [if_pos (hsmall.2 h')]
    exact congrArg some (compare_gt_iff_gt.2 hgt).symm
  · have hfits := fitsWord_of_floor hpos hn hn' (not_lt.1 h') (not_le.1 h)
    rw [if_neg (mt hsmall.1 h'), toWord_of_extent? hfloor hfits]
    exact compare_of_floor hpos hn hn'

/-- **An integer is compared with a double by their places**, without rounding. -/
theorem compareIntegerFloat_eq (hm : fitsWord m = true) (x : Binary64) :
    compareIntegerFloat m x = x.extent?.map (Extent.at (m * unitsInOne)).compare := by
  by_cases hfinite : x.isFinite = true
  · rw [compareIntegerFloat_of_isFinite hm hfinite, Binary64.extent?_of_isFinite hfinite]
    rfl
  obtain ⟨hlimit, hlimit'⟩ := extent?_floatLimit
  unfold compareIntegerFloat
  by_cases hnan : x.isNaN = true
  · rw [if_pos hnan, Binary64.extent?, if_pos hnan]
    rfl
  · -- an infinity is past the end of the range
    have hextent : x.extent? = some (if x.negative then .minusInfinity else .plusInfinity) := by
      rw [Binary64.extent?, if_neg hnan, if_neg hfinite]
    unfold Binary64.compare?
    rw [if_neg hnan, hextent, hlimit, hlimit']
    cases x.negative with
    | true => rfl
    | false => rfl

theorem value?_eq_none_iff : a.value? = none ↔ a.isNaN = true := by
  cases a with
  | integer v => exact ⟨(fun h => nomatch h), (fun h => nomatch h)⟩
  | float x =>
    unfold value? isNaN
    dsimp only
    split
    · next hnan => exact ⟨fun _ => hnan, fun _ => rfl⟩
    · next hnan =>
      split
      · exact ⟨(fun h => nomatch h), fun h => absurd h hnan⟩
      · exact ⟨(fun h => nomatch h), fun h => absurd h hnan⟩

theorem exists_value_of_isNaN (h : a.isNaN = false) : ∃ x, a.value? = some x :=
  Option.ne_none_iff_exists'.1 fun hnone => by
    rw [value?_eq_none_iff.1 hnone] at h
    exact Bool.noConfusion h

/-- **Every number that is read has a value.** -/
theorem exists_value (h : read? text = some a) : ∃ x, a.value? = some x := by
  refine exists_value_of_isNaN ?_
  cases a with
  | integer v => rfl
  | float x => exact isNaN_of_read? h

/-- Seen from the other side, the order of two places is the other one. -/
theorem swap_compare_extent (p q : Extent) : (p.compare q).swap = q.compare p := by
  rw [Extent.compare_eq, Extent.compare_eq]
  exact Std.OrientedCmp.eq_swap.symm

/-- Numbers in range are compared by their places. -/
theorem compare?_eq_extent (ha : a.InRange) (hb : b.InRange) :
    a.compare? b = a.extent?.bind fun p => b.extent?.map p.compare := by
  cases a with
  | integer m =>
    cases b with
    | integer n =>
      -- two integers are compared as they are, which is how their units compare
      have hpos : (0 : ℤ) < unitsInOne := by exact_mod_cast unitsInOne_pos
      have hmono : StrictMono fun k : ℤ => k * (unitsInOne : ℤ) :=
        fun _ _ h => mul_lt_mul_of_pos_right h hpos
      have h := hmono.cmp_map_eq m n
      rw [cmp_eq_compare, cmp_eq_compare] at h
      exact congrArg some h.symm
    | float x => exact compareIntegerFloat_eq ha x
  | float x =>
    cases b with
    | integer n =>
      have hswap := congrArg (Option.map Ordering.swap) (compareIntegerFloat_eq hb x)
      rw [Option.map_map] at hswap
      refine hswap.trans ?_
      change _ = x.extent?.bind fun p => some (p.compare (.at (n * unitsInOne)))
      cases x.extent? with
      | none => rfl
      | some p => exact congrArg some (swap_compare_extent _ p)
    | float y => rfl

/-- **Numbers are compared by their exact values.** -/
theorem compare?_eq (ha : a.InRange) (hb : b.InRange) (hx : a.value? = some x)
    (hy : b.value? = some y) : a.compare? b = some (compare x y) := by
  rw [value?_eq_extent?] at hx hy
  obtain ⟨p, hp, rfl⟩ := Option.map_eq_some_iff.1 hx
  obtain ⟨q, hq, rfl⟩ := Option.map_eq_some_iff.1 hy
  rw [compare?_eq_extent ha hb, hp, hq, ← Extent.compare_eq]
  rfl

theorem compare?_eq_none_iff (ha : a.InRange) (hb : b.InRange) :
    a.compare? b = none ↔ a.isNaN = true ∨ b.isNaN = true := by
  rw [compare?_eq_extent ha hb, ← value?_eq_none_iff, ← value?_eq_none_iff, value?_eq_extent?,
    value?_eq_extent?]
  cases a.extent? with
  | none => simp
  | some p => simp

/-- The order seen from the other side is the other one. -/
theorem compare?_swap (ha : a.InRange) (hb : b.InRange) :
    b.compare? a = (a.compare? b).map Ordering.swap := by
  rw [compare?_eq_extent ha hb, compare?_eq_extent hb ha]
  cases a.extent? with
  | none => cases b.extent? <;> rfl
  | some p =>
    cases b.extent? with
    | none => rfl
    | some q => exact congrArg some (swap_compare_extent p q).symm

/-- **A number is at most another one when its value is**, and neither is a NaN. -/
theorem atMost_iff (ha : a.InRange) (hb : b.InRange) :
    a.AtMost b ↔ ∃ x y, a.value? = some x ∧ b.value? = some y ∧ x ≤ y := by
  unfold AtMost
  constructor
  · intro h
    have hnan : ¬ (a.isNaN = true ∨ b.isNaN = true) := by
      intro hnan
      rw [(compare?_eq_none_iff ha hb).2 hnan] at h
      exact Bool.noConfusion h
    rw [not_or, Bool.not_eq_true, Bool.not_eq_true] at hnan
    obtain ⟨x, hx⟩ := exists_value_of_isNaN hnan.1
    obtain ⟨y, hy⟩ := exists_value_of_isNaN hnan.2
    rw [compare?_eq ha hb hx hy] at h
    exact ⟨x, y, hx, hy, (Operator.admits_compare .lessEqual x y).1 h⟩
  · rintro ⟨x, y, hx, hy, hle⟩
    rw [compare?_eq ha hb hx hy]
    exact (Operator.admits_compare .lessEqual x y).2 hle

end Number

/-- A numeric operator relates the numbers that two texts are read as, by their order. -/
theorem Operator.relates_numeric {actual : String} {expected : Literal} (hop : op.comparesNumbers = true) :
    op.relates actual expected = true ↔ ∃ a b, Number.read? actual.toList = some a ∧
      expected.number = some b ∧ (a.compare? b).any op.admits = true := by
  cases op with
  | equal => cases hop
  | notEqual => cases hop
  | contains => cases hop
  | _ =>
    unfold Operator.relates
    dsimp only
    cases Number.read? actual.toList <;> cases expected.number <;> simp

/-- A numeric operator relates two texts as it orders the values they are read as. -/
theorem Operator.relates_iff {actual : String} {expected : Literal} (hop : op.comparesNumbers = true)
    (ha : Number.read? actual.toList = some a) (hb : expected.number = some b)
    (hx : a.value? = some x) (hy : b.value? = some y) :
    op.relates actual expected = true ↔ op.Orders x y := by
  have hliteral : Number.read? expected.text.toList = some b := expected.number_eq.symm.trans hb
  have hcompare := Number.compare?_eq (Number.inRange_of_read? ha) (Number.inRange_of_read? hliteral) hx hy
  rw [relates_numeric hop, ha, hb]
  simp [hcompare, admits_compare]

/-- Only texts that are read as numbers are in a numeric relation. -/
theorem Operator.exists_reads {actual : String} {expected : Literal} (hop : op.comparesNumbers = true)
    (h : op.relates actual expected = true) : (∃ a, Number.read? actual.toList = some a) ∧
      ∃ b, Number.read? expected.text.toList = some b := by
  obtain ⟨a, b, ha, hb, -⟩ := (relates_numeric hop).1 h
  exact ⟨⟨a, ha⟩, b, expected.number_eq.symm.trans hb⟩

/-- What is below a value is below every larger one, and what is above a value is above every smaller
one. -/
theorem Operator.orders_mono {α : Type} [LinearOrder α] {v x y : α} (h : x ≤ y) :
    (op = .less ∨ op = .lessEqual → op.Orders v x → op.Orders v y) ∧
    (op = .greater ∨ op = .greaterEqual → op.Orders v y → op.Orders v x) := by
  constructor
  · rintro (rfl | rfl) hv
    · exact lt_of_lt_of_le hv h
    · exact le_trans hv h
  · rintro (rfl | rfl) hv
    · exact lt_of_le_of_lt h hv
    · exact le_trans h hv

/-- A numeric operator is monotone in the number of its literal. -/
theorem Operator.relates_mono (op : Operator) (actual : String) {l l' : Literal}
    (hb : l.number = some b) (hc : l'.number = some c) (hbc : b.AtMost c) :
    (op = .less ∨ op = .lessEqual → op.relates actual l = true → op.relates actual l' = true) ∧
    (op = .greater ∨ op = .greaterEqual → op.relates actual l' = true →
      op.relates actual l = true) := by
  have hbread : Number.read? l.text.toList = some b := l.number_eq.symm.trans hb
  have hcread : Number.read? l'.text.toList = some c := l'.number_eq.symm.trans hc
  obtain ⟨x, y, hx, hy, hle⟩ :=
    (Number.atMost_iff (Number.inRange_of_read? hbread) (Number.inRange_of_read? hcread)).1 hbc
  constructor
  · intro hop h
    have hnumeric : op.comparesNumbers = true := by rcases hop with rfl | rfl <;> rfl
    obtain ⟨⟨a, ha⟩, -⟩ := exists_reads hnumeric h
    obtain ⟨v, hv⟩ := Number.exists_value ha
    rw [relates_iff hnumeric ha hb hv hx] at h
    exact (relates_iff hnumeric ha hc hv hy).2 ((orders_mono hle).1 hop h)
  · intro hop h
    have hnumeric : op.comparesNumbers = true := by rcases hop with rfl | rfl <;> rfl
    obtain ⟨⟨a, ha⟩, -⟩ := exists_reads hnumeric h
    obtain ⟨v, hv⟩ := Number.exists_value ha
    rw [relates_iff hnumeric ha hc hv hy] at h
    exact (relates_iff hnumeric ha hb hv hx).2 ((orders_mono hle).2 hop h)

/-- A clause whose literal is replaced holds more often if its operator relates more texts to the new
one. -/
theorem Clause.holdsOf_literal {ε : Type} [EventLike ε] {event : ε} {d : Clause} {l l' : Literal}
    (h : ∀ text, d.operator.relates text l = true → d.operator.relates text l' = true)
    (hholds : { d with literal := l }.holdsOf event = true) :
    { d with literal := l' }.holdsOf event = true := by
  obtain ⟨hname, text, htext, hrelates⟩ := (holdsOf_iff _ event).1 hholds
  exact (holdsOf_iff _ event).2 ⟨hname, text, htext, h text hrelates⟩

/-- **The order of numbers is that of their exact values**, in the rationals with an infinity at either end:
a NaN has no place in it, and every other number has its own, integers and doubles alike. So the order is
the same seen from either side, total and transitive; and a clause with a relational operator holds the more
often the more its literal gives room. -/
theorem Number.compare?_exact (ha : a.InRange) (hb : b.InRange) (hc : c.InRange) :
    (a.compare? b = none ↔ a.isNaN = true ∨ b.isNaN = true) ∧
    (∀ x y, a.value? = some x → b.value? = some y → a.compare? b = some (compare x y)) ∧
    b.compare? a = (a.compare? b).map Ordering.swap ∧
    (a.isNaN = false → b.isNaN = false → a.AtMost b ∨ b.AtMost a) ∧
    (a.AtMost b → b.AtMost c → a.AtMost c) ∧
    ∀ (d : Clause) (l l' : Literal), l.number = some a → l'.number = some b → a.AtMost b →
      ∀ {ε : Type} [EventLike ε] (event : ε),
        (d.operator = .less ∨ d.operator = .lessEqual →
          { d with literal := l }.holdsOf event = true →
          { d with literal := l' }.holdsOf event = true) ∧
        (d.operator = .greater ∨ d.operator = .greaterEqual →
          { d with literal := l' }.holdsOf event = true →
          { d with literal := l }.holdsOf event = true) := by
  refine ⟨compare?_eq_none_iff ha hb, fun x y => compare?_eq ha hb, compare?_swap ha hb, ?_, ?_, ?_⟩
  · intro hna hnb
    obtain ⟨x, hx⟩ := exists_value_of_isNaN hna
    obtain ⟨y, hy⟩ := exists_value_of_isNaN hnb
    rcases le_total x y with hle | hle
    · exact .inl ((atMost_iff ha hb).2 ⟨x, y, hx, hy, hle⟩)
    · exact .inr ((atMost_iff hb ha).2 ⟨y, x, hy, hx, hle⟩)
  · intro hab hbc
    obtain ⟨x, y, hx, hy, hxy⟩ := (atMost_iff ha hb).1 hab
    obtain ⟨y', z, hy', hz, hyz⟩ := (atMost_iff hb hc).1 hbc
    obtain rfl : y = y' := Option.some.inj (hy.symm.trans hy')
    exact (atMost_iff ha hc).2 ⟨x, z, hx, hz, hxy.trans hyz⟩
  · intro d l l' hl hl' hab ε _ event
    have hmono := fun actual => d.operator.relates_mono actual hl hl' hab
    exact ⟨fun hop => Clause.holdsOf_literal fun text => (hmono text).1 hop,
      fun hop => Clause.holdsOf_literal fun text => (hmono text).2 hop⟩

/-- The integer after `2⁵³` is larger than the double `2⁵³`, which is the double nearest to it, and `-3` is
at most `-2.5`, which is at most the negative zero. -/
theorem Number.compare?_exact_mixed :
    let large := Number.float (.ofBits 0x4340000000000000)
    let half := Number.float (.ofBits 0xC004000000000000)
    let zero := Number.float (.ofBits 0x8000000000000000)
    (Number.integer 9007199254740993).compare? large = some .gt ∧
      large.compare? (.integer 9007199254740993) = some .lt ∧
      (Number.integer (-3)).AtMost half ∧ half.AtMost zero ∧ (Number.integer (-3)).AtMost zero := by
  intro large half zero
  have hvalue : large.value? = some (((9007199254740992 : ℚ) : WithTop ℚ) : ExtendedRat) := by
    have hunits : (Binary64.ofBits 0x4340000000000000).units = 9007199254740992 * (unitsInOne : ℤ) := by
      decide +kernel
    have hx : (Binary64.ofBits 0x4340000000000000).value = 9007199254740992 := by
      unfold Binary64.value
      rw [hunits]
      push_cast
      exact mul_div_cancel_right₀ _ (ne_of_gt unitsInOne_cast_pos)
    rw [← hx]
    rfl
  have hrange : (Number.integer 9007199254740993).InRange := show fitsWord _ = true by decide
  have hrange' : (Number.integer (-3)).InRange := show fitsWord _ = true by decide
  have hlow : (Number.integer (-3)).AtMost half :=
    show Option.any _ (Number.compare? _ _) = true by decide +kernel
  have hhigh : half.AtMost zero := show Option.any _ (Number.compare? _ _) = true by decide +kernel
  obtain ⟨-, hexact, hswap, -⟩ := @compare?_exact _ large zero hrange trivial trivial
  obtain ⟨-, -, -, -, htrans, -⟩ := @compare?_exact _ half zero hrange' trivial trivial
  have hgt : (Number.integer 9007199254740993).compare? large = some .gt := by
    rw [hexact _ _ rfl hvalue]
    refine congrArg some (compare_gt_iff_gt.2 ?_)
    exact WithBot.coe_lt_coe.2 (WithTop.coe_lt_coe.2 (by norm_num))
  refine ⟨hgt, ?_, hlow, hhigh, htrans hlow hhigh⟩
  rw [hswap, hgt]
  rfl

end EventSieve
