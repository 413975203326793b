import PostfixArithmetic.Proofs.Lexer.Safety

/-!
# Telling of the end of the text

A lexer that is asked for its next tokens promises to say so where no text is left, and only
there; elsewhere it answers for the rule that wins, or complains of the character at which
none does. The rules look for the end of the text, each before it is tried. So a lexer with
rules keeps the promise wherever it was moved, and so does one without rules as long as
there is text left. Without rules and without text nobody looks, and a character is read
that is not there. No other request can come to that.
-/

namespace PostfixArithmetic

namespace Cursor

variable {cursor moved : Cursor} {failure : Failure}

/-- How lexing once answers where there is text left. -/
inductive AnswersInText (cursor : Cursor) : Except Failure (List Token) → Prop where
  /-- It has the tokens that the winning rule builds from its piece. -/
  | accepted {piece : List Char} {rule : Rule} {tokens : List Token}
    (win : Wins cursor.rules cursor.rest piece rule)
    (hb : rule.build (String.ofList piece) = some tokens) : AnswersInText cursor (.ok tokens)
  /-- The winning rule rejects its piece. -/
  | rejected {piece : List Char} {rule : Rule} (win : Wins cursor.rules cursor.rest piece rule)
    (hb : rule.build (String.ofList piece) = none) :
    AnswersInText cursor (.error (.badNumeral (String.ofList piece)))
  /-- It complains of the character at which no rule wins. -/
  | unrecognized {c : Char} (h : cursor.Stuck c) :
    AnswersInText cursor (.error (cursor.complaint c))

/-- A step where there is text left answers so. -/
theorem Steps.answersInText {answer : Except Failure (List Token)} (h : Steps cursor answer moved)
    (hu : ¬ cursor.isFinished = true) : cursor.AnswersInText answer := by
  cases h with
  | accepted win hs hb => exact .accepted win hb
  | rejected win hs hb => exact .rejected win hb
  | unrecognized hs => exact .unrecognized hs
  | finished hf => exact absurd hf hu

/-- Such an answer never says that there is no text. -/
theorem AnswersInText.ne_endOfText_and_ne_pastEnd (h : cursor.AnswersInText (.error failure)) :
    failure ≠ .endOfText ∧ failure ≠ .pastEnd := by
  cases h with
  | rejected win hb => exact ⟨by simp, by simp⟩
  | unrecognized hs => exact ⟨by simp [complaint], by simp [complaint]⟩

/-- Nor does lexing that goes on behind matches. -/
theorem Fails.ne_pastEnd (h : Fails cursor failure moved) : failure ≠ .pastEnd := by
  induction h with
  | unrecognized h => simp [complaint]
  | rejected hm hb => simp
  | later hm rest ih => exact ih

/-- Lexing once says that there is no text only where there is none. What it says depends
on whether there are rules that look for the end. -/
theorem next_eq_noText_iff (hf : failure = .endOfText ∨ failure = .pastEnd) :
    cursor.next.1 = .error failure ↔
      cursor.isFinished = true ∧
        failure = if cursor.rules.isEmpty then .pastEnd else .endOfText := by
  by_cases hfin : cursor.isFinished = true
  · rw [next_of_finished hfin, and_iff_right hfin, Except.error.injEq, eq_comm]
  · refine iff_of_false (fun h => ?_) (fun h => hfin h.1)
    have ha := cursor.steps_next.answersInText hfin
    rw [h] at ha
    exact hf.elim ha.ne_endOfText_and_ne_pastEnd.1 ha.ne_endOfText_and_ne_pastEnd.2

/-- The end of the text is told of where there are rules that look for it. -/
theorem next_eq_endOfText_iff :
    cursor.next.1 = .error .endOfText ↔ cursor.isFinished = true ∧ cursor.rules ≠ [] := by
  rw [next_eq_noText_iff (Or.inl rfl)]
  cases cursor.rules <;> simp

/-- Without rules a character is read that is not there. -/
theorem next_eq_pastEnd_iff :
    cursor.next.1 = .error .pastEnd ↔ cursor.isFinished = true ∧ cursor.rules = [] := by
  rw [next_eq_noText_iff (Or.inr rfl)]
  cases cursor.rules <;> simp

end Cursor

namespace Session

/-- What a lexer promises whoever asks it for its next tokens. -/
structure ReportsEnd (session : Session) : Prop where
  /-- It tells of the end of the text exactly where no text is left. -/
  endOfText_iff : (session.perform .next).1 = .error .endOfText ↔
    session.cursor.isFinished = true
  /-- Elsewhere it answers for the rule that wins, or complains that none does. -/
  unfinished : ¬ session.cursor.isFinished = true →
    ∃ answer, session.cursor.AnswersInText answer ∧
      (session.perform .next).1 = answer.map .tokens

variable {session : Session} {action : Action}

/-- A failure of lexing once is a failure of the cursor. -/
theorem perform_next_eq_error_iff {failure : Failure} :
    (session.perform .next).1 = .error failure ↔ session.cursor.next.1 = .error failure := by
  rw [perform_next]
  refine ⟨error_of_map_error, fun h => ?_⟩
  rw [h]
  rfl

/-- A lexer keeps the promise exactly if it has rules or there is text left. -/
theorem reportsEnd_iff :
    session.ReportsEnd ↔ session.cursor.rules ≠ [] ∨ ¬ session.cursor.isFinished = true := by
  have hend : (session.perform .next).1 = .error .endOfText ↔
      session.cursor.isFinished = true ∧ session.cursor.rules ≠ [] :=
    perform_next_eq_error_iff.trans Cursor.next_eq_endOfText_iff
  constructor
  · intro h
    by_cases hf : session.cursor.isFinished = true
    · exact Or.inl (hend.mp (h.endOfText_iff.mpr hf)).2
    · exact Or.inr hf
  · intro h
    have hrules : session.cursor.isFinished = true → session.cursor.rules ≠ [] := fun hf =>
      h.resolve_right (not_not_intro hf)
    exact ⟨hend.trans (and_iff_left_of_imp hrules), fun hu =>
      ⟨_, session.cursor.steps_next.answersInText hu, rfl⟩⟩

/-- A character that is not there is only read by lexing once, at the end of the text and
without rules. -/
theorem perform_eq_pastEnd_iff :
    (session.perform action).1 = .error .pastEnd ↔
      action = .next ∧ session.cursor.isFinished = true ∧ session.cursor.rules = [] := by
  constructor
  · intro h
    cases action with
    | next => exact ⟨rfl, Cursor.next_eq_pastEnd_iff.mp (perform_next_eq_error_iff.mp h)⟩
    | tokens =>
      rw [perform_tokens] at h
      exact absurd rfl (Cursor.fails_tokens (error_of_map_error h)).ne_pastEnd
    | consume pattern =>
      have ht := session.cursor.tries_consume pattern
      rw [perform_consume] at h
      rw [error_of_map_error h] at ht
      cases ht.eq_endOfText
    | generate => cases h
    | pull number =>
      have hp := (session.feed number).pulls_pull session.cursor
      rw [perform_pull] at h
      rw [error_of_map_error h] at hp
      rcases hp.fails with hf | he
      · exact absurd rfl hf.ne_pastEnd
      · cases he
    | seek position => cases h
  · rintro ⟨rfl, hf, hr⟩
    exact perform_next_eq_error_iff.mpr (Cursor.next_eq_pastEnd_iff.mpr ⟨hf, hr⟩)

/-- Whatever was asked of a lexer from its start on, and wherever it was moved to, it keeps
its text and its rules, and it keeps the promise of telling the end of the text exactly if it
has rules or there is text left. Where it does not, a character is read that is not there;
nothing else that may be asked of it fails so. -/
theorem reportsEnd_after_iff (rules : List Rule) (text : String) (actions : List Action) :
    ∃ session, (start rules text).after actions = session ∧
      session.cursor.text = text.toList ∧ session.cursor.rules = rules ∧
      (session.ReportsEnd ↔ rules ≠ [] ∨ session.cursor.position < text.length) ∧
      ∀ action, (session.perform action).1 = .error .pastEnd ↔
        action = .next ∧ text.length ≤ session.cursor.position ∧ rules = [] := by
  obtain ⟨ht, hr⟩ := (start rules text).text_and_rules_after actions
  have hl : ((start rules text).after actions).cursor.text.length = text.length :=
    (congrArg List.length ht).trans String.length_toList
  refine ⟨_, rfl, ht, hr, ?_, fun action => ?_⟩
  · rw [reportsEnd_iff, hr, Cursor.isFinished, decide_eq_true_eq, hl, Nat.not_le]
    rfl
  · rw [perform_eq_pastEnd_iff, hr, Cursor.isFinished, decide_eq_true_eq, hl]
    rfl

/-- A lexer for the empty text without any rule does not keep the promise. -/
theorem not_reportsEnd_without_rules : ¬ (start [] "").ReportsEnd := by
  intro h
  have hend := h.endOfText_iff.mpr rfl
  cases hend

end Session

end PostfixArithmetic
