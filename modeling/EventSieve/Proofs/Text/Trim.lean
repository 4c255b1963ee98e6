import EventSieve.Proofs.Text.Runs

/-!
# Trimming

What trimming takes away and what it leaves alone.

* `exists_trim`: a text is its trimmed form between two blank texts.
* `trim_append_left`, `trim_append_right`: blanks put around a text do not change its trimmed form.
* `trim_eq_self`: a text without a blank at either end is its own trimmed form.
* `trim_eq_nil_iff`: nothing is left of blank texts, and of no others.
-/

namespace EventSieve.Text

/-- All characters of a text are blank. -/
def Blank (s : List Char) : Prop := ∀ c ∈ s, isBlank c = true

variable {s b : List Char}

theorem blank_nil : Blank [] := fun _ h => absurd h List.not_mem_nil

theorem blank_space : Blank [' '] := by
  intro c hc
  rw [List.mem_singleton.1 hc]
  decide

theorem blank_append : Blank (s ++ b) ↔ Blank s ∧ Blank b := List.forall_mem_append

theorem blank_reverse : Blank s.reverse ↔ Blank s := by
  unfold Blank
  simp only [List.mem_reverse]

/-- A character that no blank text holds does not start one. -/
theorem Blank.head?_ne (h : Blank s) {c : Char} (hc : isBlank c = false) : s.head? ≠ some c := by
  intro hs
  have hb := h c (List.mem_of_head? hs)
  rw [hc] at hb
  exact Bool.false_ne_true hb

theorem trimStart_eq_nil_iff : trimStart s = [] ↔ Blank s := List.dropWhile_eq_nil_iff

/-- The start of a text stays when it is not blank. -/
theorem trimStart_eq_self (h : StopsAt isBlank s) : trimStart s = s :=
  dropWhile_of_stopsAt (fun _ hc => absurd hc List.not_mem_nil) h

theorem stopsAt_trimStart (s : List Char) : StopsAt isBlank (trimStart s) :=
  stopsAt_dropWhile isBlank s

theorem trimStart_append_left (hb : Blank b) (s : List Char) : trimStart (b ++ s) = trimStart s :=
  List.dropWhile_append_of_pos hb

theorem trimStart_append_right (s b : List Char) (hs : ¬ Blank s) :
    trimStart (s ++ b) = trimStart s ++ b := by
  have hne : (s.dropWhile isBlank).isEmpty = false := by
    rw [List.isEmpty_eq_false_iff]
    exact fun h => hs (trimStart_eq_nil_iff.1 h)
  unfold trimStart
  rw [List.dropWhile_append, hne]
  rfl

/-- A text is what trimming its start leaves, after blanks. -/
theorem exists_trimStart (s : List Char) : ∃ b, Blank b ∧ s = b ++ trimStart s :=
  ⟨s.takeWhile isBlank, fun _ hc => List.mem_takeWhile_imp hc, List.takeWhile_append_dropWhile.symm⟩

/-- A text is what trimming its end leaves, before blanks. -/
theorem exists_trimEnd (s : List Char) : ∃ b, Blank b ∧ s = trimEnd s ++ b := by
  obtain ⟨b, hb, hs⟩ := exists_trimStart s.reverse
  have hreverse := congrArg List.reverse hs
  rw [List.reverse_reverse, List.reverse_append] at hreverse
  exact ⟨b.reverse, blank_reverse.2 hb, hreverse⟩

/-- **A text is its trimmed form between blanks.** -/
theorem exists_trim (s : List Char) : ∃ a b, Blank a ∧ Blank b ∧ s = a ++ trim s ++ b := by
  obtain ⟨a, ha, hs⟩ := exists_trimStart s
  obtain ⟨b, hb, ht⟩ := exists_trimEnd (trimStart s)
  refine ⟨a, b, ha, hb, ?_⟩
  rw [List.append_assoc, trim, ← ht]
  exact hs

/-- Nothing is left of a blank text. -/
theorem trim_of_blank (h : Blank s) : trim s = [] := by
  unfold trim
  rw [trimStart_eq_nil_iff.2 h]
  rfl

theorem trim_eq_nil_iff : trim s = [] ↔ Blank s := by
  refine ⟨fun h => ?_, trim_of_blank⟩
  obtain ⟨a, b, ha, hb, hs⟩ := exists_trim s
  rw [h, List.append_nil] at hs
  rw [hs]
  exact blank_append.2 ⟨ha, hb⟩

/-- Blanks before a text do not change its trimmed form. -/
theorem trim_append_left (hb : Blank b) (s : List Char) : trim (b ++ s) = trim s := by
  unfold trim
  rw [trimStart_append_left hb]

/-- Blanks after a text do not change its trimmed form. -/
theorem trim_append_right (s : List Char) (hb : Blank b) : trim (s ++ b) = trim s := by
  by_cases hs : Blank s
  · rw [trim_of_blank hs, trim_of_blank (blank_append.2 ⟨hs, hb⟩)]
  · unfold trim trimEnd
    rw [trimStart_append_right s b hs, List.reverse_append,
      trimStart_append_left (blank_reverse.2 hb)]

/-- **Trimming leaves a text alone whose ends are not blank.** -/
theorem trim_eq_self (hs : StopsAt isBlank s) (he : StopsAt isBlank s.reverse) : trim s = s := by
  unfold trim trimEnd
  rw [trimStart_eq_self hs, trimStart_eq_self he, List.reverse_reverse]

/-- A trimmed text does not start with a blank. -/
theorem stopsAt_trim (s : List Char) : StopsAt isBlank (trim s) := by
  obtain ⟨b, -, hs⟩ := exists_trimEnd (trimStart s)
  have hstop := stopsAt_trimStart s
  rw [hs] at hstop
  exact hstop.of_append

/-- A trimmed text does not end with a blank. -/
theorem stopsAt_reverse_trim (s : List Char) : StopsAt isBlank (trim s).reverse := by
  unfold trim trimEnd
  rw [List.reverse_reverse]
  exact stopsAt_trimStart _

/-- Only blanks before a text are trimmed when it does not end with one. -/
theorem exists_trim_of_stopsAt (he : StopsAt isBlank s.reverse) : ∃ b, Blank b ∧ s = b ++ trim s := by
  obtain ⟨b, hb, hs⟩ := exists_trimStart s
  refine ⟨b, hb, ?_⟩
  rw [hs, List.reverse_append] at he
  unfold trim trimEnd
  rw [trimStart_eq_self he.of_append, List.reverse_reverse]
  exact hs

end EventSieve.Text
