/-!
# Texts

A text is a list of characters.

* `isBlank`: membership in Unicode's White_Space property.
* `trimStart`, `trimEnd`, `trim`: a text without the blanks at its start, its end, both.
* `integerText`, `digitsValue`: an integer in decimal, and the number that decimal digits denote.
* `hexDigit?`, `hexValue?`: the value of a hexadecimal digit of either letter case, and the number that a
  run of them denotes.
* `occursIn`: whether a text occurs in another one.
* `splitAtPair`: a text cut at the first occurrence of a pair of characters.
* `Ranges`: a set of code points, as the ascending list of its ranges.
-/

namespace EventSieve.Text

/-- Membership in the White_Space property of Unicode. -/
def isBlank (c : Char) : Bool :=
  let n := c.toNat
  (0x09 ≤ n && n ≤ 0x0D) || n == 0x20 || n == 0x85 || n == 0xA0 || n == 0x1680 ||
    (0x2000 ≤ n && n ≤ 0x200A) || n == 0x2028 || n == 0x2029 || n == 0x202F || n == 0x205F ||
    n == 0x3000

/-- A text without the blanks it starts with. -/
def trimStart (s : List Char) : List Char := s.dropWhile isBlank

/-- A text without the blanks it ends with. -/
def trimEnd (s : List Char) : List Char := (trimStart s.reverse).reverse

/-- A text without the blanks it starts and ends with. -/
def trim (s : List Char) : List Char := trimEnd (trimStart s)

/-- Whether a text is not empty and its first character is blank. -/
def startsBlank (s : List Char) : Bool := s.head?.any isBlank

/-- An integer in decimal: its digits, after a minus sign when it is negative. -/
def integerText (v : Int) : List Char :=
  if v < 0 then '-' :: Nat.toDigits 10 v.natAbs else Nat.toDigits 10 v.natAbs

/-- The value of a hexadecimal digit, in either letter case. -/
def hexDigit? (c : Char) : Option Nat :=
  if '0' ≤ c ∧ c ≤ '9' then some (c.toNat - '0'.toNat)
  else if 'a' ≤ c ∧ c ≤ 'f' then some (c.toNat - 'a'.toNat + 10)
  else if 'A' ≤ c ∧ c ≤ 'F' then some (c.toNat - 'A'.toNat + 10)
  else none

/-- The number that hexadecimal digits denote after a leading part worth `high`; none if a
character is no such digit. -/
def hexValueFrom? (high : Nat) : List Char → Option Nat
  | [] => some high
  | c :: s => (hexDigit? c).bind fun d => hexValueFrom? (16 * high + d) s

/-- The number that one or more hexadecimal digits denote. -/
def hexValue? (s : List Char) : Option Nat := if s.isEmpty then none else hexValueFrom? 0 s

/-- The number that decimal digits denote; no digits denote zero. -/
def digitsValue (s : List Char) : Nat := Nat.ofDigitChars 10 s 0

/-- Whether `needle` occurs in a text as a run of consecutive characters. -/
def occursIn (needle : List Char) : List Char → Bool
  | [] => needle.isEmpty
  | c :: s => needle.isPrefixOf (c :: s) || occursIn needle s

/-- A text cut at the first place where `a` stands before `b`: what comes before the pair and what
comes after it. `before` holds the characters passed so far, last first. -/
def cutAtPair (a b : Char) (before : List Char) : List Char → Option (List Char × List Char)
  | x :: y :: s =>
    if x = a ∧ y = b then some (before.reverse, s) else cutAtPair a b (x :: before) (y :: s)
  | _ => none

/-- The parts of a text before and after its first `a` followed by `b`, if there is one. -/
def splitAtPair (a b : Char) (s : List Char) : Option (List Char × List Char) := cutAtPair a b [] s

/-- A set of code points: disjoint ranges, both ends included, in ascending order. -/
abbrev Ranges := List (Nat × Nat)

/-- Membership in a set of code points; the search ends at the first range past `n`. -/
def Ranges.contains (n : Nat) : Ranges → Bool
  | [] => false
  | (first, last) :: rest => if n < first then false else n ≤ last || Ranges.contains n rest

end EventSieve.Text
