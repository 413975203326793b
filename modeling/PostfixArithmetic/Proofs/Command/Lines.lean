import PostfixArithmetic.Proofs.Command.Words

/-!
# The lines of an input

The lines of a text are what stands between its line feeds, and a last line without one
counts if it is not empty. A line says goodbye if it is the word for it in any case, with
nothing but blanks around it.
-/

namespace PostfixArithmetic

/-- These are the lines of a text. -/
inductive Lines : List (List Char) → List Char → Prop where
  /-- An empty text has no lines. -/
  | nil : Lines [] []
  /-- A last line without a line feed is not empty. -/
  | last {line : List Char} (nonempty : line ≠ []) (single : '\n' ∉ line) : Lines [line] line
  /-- Any other line ends in a line feed. -/
  | cons {line rest : List Char} {lines : List (List Char)} (single : '\n' ∉ line)
    (others : Lines lines rest) : Lines (line :: lines) (line ++ '\n' :: rest)

/-- A line says goodbye: between blanks it is the word `BYE` in capitals or not. -/
def SaysGoodbye (line : String) : Prop :=
  ∃ before word after, line.toList = before ++ (word ++ after) ∧
    (∀ c ∈ before, isBlank c = true) ∧ (∀ c ∈ after, isBlank c = true) ∧
    word.map Char.toUpper = ['B', 'Y', 'E']

namespace Prompt

/-- Another character than a line feed goes to the first line. -/
theorem lines_cons {c : Char} (h : c ≠ '\n') {rest : List Char}
    (hl : Lines (splitLines rest) rest) : Lines (splitLines (c :: rest)) (c :: rest) := by
  have hc : ∀ {line : List Char}, '\n' ∉ line → '\n' ∉ c :: line := fun hn hm =>
    (List.mem_cons.mp hm).elim (fun he => h he.symm) hn
  rw [splitLines, if_neg h]
  generalize splitLines rest = lines at hl ⊢
  cases hl with
  | nil => exact .last (List.cons_ne_nil _ _) (hc List.not_mem_nil)
  | last nonempty single => exact .last (List.cons_ne_nil _ _) (hc single)
  | cons single others => exact .cons (hc single) others

/-- A text is split into its lines. -/
theorem lines_splitLines (text : List Char) : Lines (splitLines text) text := by
  induction text with
  | nil => exact .nil
  | cons c rest ih =>
    by_cases hc : c = '\n'
    · rw [splitLines, if_pos hc, hc]
      exact .cons List.not_mem_nil ih
    · exact lines_cons hc ih

/-- A line up to its line feed is split off. -/
theorem splitLines_line {line : List Char} (h : '\n' ∉ line) (rest : List Char) :
    splitLines (line ++ '\n' :: rest) = line :: splitLines rest := by
  induction line with
  | nil => rfl
  | cons c line ih =>
    obtain ⟨hc, hline⟩ := not_or.mp (mt List.mem_cons.mpr h)
    rw [List.cons_append, splitLines, if_neg (Ne.symm hc), ih hline]

/-- The lines of a text are those that it is split into, and no others. -/
theorem splitLines_eq_iff {text : List Char} {lines : List (List Char)} :
    splitLines text = lines ↔ Lines lines text := by
  constructor
  · rintro rfl
    exact lines_splitLines text
  · intro h
    induction h with
    | nil => rfl
    | last nonempty single => exact splitLines_of_not_mem nonempty single
    | cons single others ih => rw [splitLines_line single, ih]

/-- No blank is a letter, so that it has no capital. -/
theorem toUpper_of_isBlank {c : Char} (h : isBlank c = true) : c.toUpper = c := by
  rw [isBlank, CodeRange.covers_iff] at h
  obtain ⟨range, hr, hlow, hhigh⟩ := h
  refine dif_neg fun hletter => ?_
  obtain ⟨hfirst, hlast⟩ := hletter
  change 0x61 ≤ c.toNat at hfirst
  change c.toNat ≤ 0x7A at hlast
  simp only [blankRanges, List.mem_cons, List.not_mem_nil, or_false] at hr
  rcases hr with rfl | rfl | rfl | rfl | rfl | rfl | rfl | rfl | rfl | rfl <;>
    simp only at hlow hhigh <;> omega

/-- What is left of a text without the characters of a class at both ends. -/
theorem trimBoth_append {drop : Char → Bool} {before word after : List Char}
    (hb : ∀ c ∈ before, drop c = true) (hw : ∀ c ∈ word, drop c = false)
    (ha : ∀ c ∈ after, drop c = true) (hne : word ≠ []) :
    trimBoth drop (before ++ (word ++ after)) = word := by
  obtain ⟨c, others, rfl⟩ := List.exists_cons_of_ne_nil hne
  have hfirst : ∀ d ∈ ((c :: others) ++ after).head?, drop d = false := by
    rintro d ⟨⟩
    exact hw c List.mem_cons_self
  have hlast : ∀ d ∈ (c :: others).reverse.head?, drop d = false := fun d hd =>
    hw d (List.mem_reverse.mp (List.mem_of_mem_head? hd))
  have hback : ∀ d ∈ after.reverse, drop d = true := fun d hd => ha d (List.mem_reverse.mp hd)
  rw [trimBoth, (span_append hb hfirst).2, List.reverse_append, (span_append hback hlast).2,
    List.reverse_reverse]

/-- A text is what is left of it between characters of the class. -/
theorem exists_trimBoth (drop : Char → Bool) (text : List Char) :
    ∃ before after, text = before ++ (trimBoth drop text ++ after) ∧
      (∀ c ∈ before, drop c = true) ∧ ∀ c ∈ after, drop c = true := by
  refine ⟨text.takeWhile drop, ((text.dropWhile drop).reverse.takeWhile drop).reverse, ?_,
    fun c => List.mem_takeWhile_imp, fun c hc => List.mem_takeWhile_imp (List.mem_reverse.mp hc)⟩
  rw [trimBoth, ← List.reverse_append, List.takeWhile_append_dropWhile, List.reverse_reverse,
    List.takeWhile_append_dropWhile]

/-- The lines that end a conversation are those that say goodbye. -/
theorem isFarewell_iff (line : String) : isFarewell line = true ↔ SaysGoodbye line := by
  rw [isFarewell, decide_eq_true_iff]
  constructor
  · intro h
    obtain ⟨before, after, ht, hb, ha⟩ := exists_trimBoth isBlank line.toList
    exact ⟨before, _, after, ht, hb, ha, h⟩
  · rintro ⟨before, word, after, ht, hb, ha, hw⟩
    have hletters : ∀ c ∈ word, isBlank c = false := by
      intro c hc
      cases hblank : isBlank c with
      | false => rfl
      | true =>
        have hm := List.mem_map_of_mem (f := Char.toUpper) hc
        rw [hw, toUpper_of_isBlank hblank] at hm
        have hnone : ['B', 'Y', 'E'].all (fun c => !isBlank c) = true := by decide
        have hn := List.all_eq_true.mp hnone c hm
        rw [hblank] at hn
        cases hn
    have hne : word ≠ [] := by
      rintro rfl
      cases hw
    rw [ht, trimBoth_append hb hletters ha hne, hw]
    rfl

end Prompt

end PostfixArithmetic
