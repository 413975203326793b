import PostfixArithmetic.Lexer.Session

/-!
# Lexing step by step

A cursor that lexes to the end of its text does what asking for the next tokens again
and again does, as long as there is text left. The end of the text is noticed before
each step, so a step is never asked for where there is nothing to lex.
-/

namespace PostfixArithmetic.Cursor

variable {cursor moved : Cursor}

/-- A cursor that is not finished has a character left. -/
theorem exists_rest (h : ¬ cursor.isFinished = true) : ∃ c rest, cursor.rest = c :: rest := by
  rw [isFinished_iff] at h
  exact List.exists_cons_of_ne_nil h

/-- The text behind a piece is what is left without it. -/
theorem rest_advance (cursor : Cursor) (piece : List Char) :
    (cursor.advance piece).rest = cursor.rest.drop piece.length := by
  rw [rest, rest, List.drop_drop]
  rfl

/-- At the end of the text lexing once fails, and nothing moves. -/
theorem next_of_finished (h : cursor.isFinished = true) :
    cursor.next = (.error (if cursor.rules.isEmpty then .pastEnd else .endOfText), cursor) := by
  rw [next, (isFinished_iff cursor).mp h]

/-- At the end of the text there are no more tokens, and nothing moves. -/
theorem tokens_of_finished (h : cursor.isFinished = true) : cursor.tokens = (.ok [], cursor) := by
  rw [tokens, (isFinished_iff cursor).mp h, scan]
  rfl

/-- A step that fails is the last one. -/
theorem tokens_of_next_error {failure : Failure} (hu : ¬ cursor.isFinished = true)
    (h : cursor.next = (.error failure, moved)) : cursor.tokens = (.error failure, moved) := by
  obtain ⟨c, rest, hr⟩ := exists_rest hu
  rw [next, hr] at h
  rw [tokens, hr]
  cases hw : winner? cursor.rules (c :: rest) with
  | none =>
    simp only [hw] at h
    rw [scan_of_no_winner hw, ← h]
    rfl
  | some found =>
    obtain ⟨piece, rule⟩ := found
    simp only [hw] at h
    cases hb : rule.build (String.ofList piece) with
    | none =>
      rw [hb] at h
      rw [scan_of_rejected hw hb, ← h]
      rfl
    | some list =>
      rw [hb] at h
      cases h

/-- Otherwise the tokens of the step come before those from where it stops. -/
theorem tokens_of_next_ok {list : List Token} (hu : ¬ cursor.isFinished = true)
    (h : cursor.next = (.ok list, moved)) :
    cursor.tokens = (moved.tokens.1.map (list ++ ·), moved.tokens.2) := by
  obtain ⟨c, rest, hr⟩ := exists_rest hu
  rw [next, hr] at h
  rw [tokens, hr]
  cases hw : winner? cursor.rules (c :: rest) with
  | none =>
    simp only [hw] at h
    cases h
  | some found =>
    obtain ⟨piece, rule⟩ := found
    simp only [hw] at h
    cases hb : rule.build (String.ofList piece) with
    | none =>
      rw [hb] at h
      cases h
    | some built =>
      rw [hb] at h
      cases h
      rw [scan_of_winner hw hb, tokens, rest_advance, hr]
      rfl

end PostfixArithmetic.Cursor
