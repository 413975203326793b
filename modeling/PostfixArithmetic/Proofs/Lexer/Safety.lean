import PostfixArithmetic.Proofs.Lexer.Sharing

/-!
# Where a lexer stands

A lexer that is shared moves over pieces of its text, never back and never beyond the end,
unless it is told to go somewhere. A failure leaves it where it is, but for a piece that a
rule rejects, which is passed. Where no rule wins at a character the lexer is stuck: the
failure names the place and the character, and whoever asks for tokens there is told the
same, until the lexer is moved by a seek or by a pattern that matches.
-/

namespace PostfixArithmetic

/-- An answer that is only worded in another way is a failure only if it was one. -/
theorem error_of_map_error {α β : Type} {f : α → β} {answer : Except Failure α}
    {failure : Failure} (h : answer.map f = .error failure) : answer = .error failure := by
  cases answer with
  | ok value => cases h
  | error cause =>
    cases h
    rfl

/-- What a pattern matches stands at the start of the input. -/
theorem Pattern.Matches.exists_rest {pattern : Pattern} {input piece : List Char}
    (h : pattern.Matches input piece) : ∃ rest, input = piece ++ rest := by
  cases h with
  | literal characters rest => exact ⟨rest, rfl⟩
  | run all stop enough => exact ⟨_, rfl⟩
  | @general matcher input piece found =>
    obtain ⟨rest, hr⟩ := (matcher.nonempty_prefix found).2
    exact ⟨rest, hr.symm⟩

/-- A chain ends at its start or within the text. -/
theorem Tiles.stop_le {rules : List Rule} {text : List Char} {start stop : Nat}
    {chain : List Match} (h : Tiles rules text start chain stop) :
    stop ≤ max start text.length := by
  have hs := h.stop_eq
  have hl := congrArg List.length h.drop_eq
  rw [List.length_drop, List.length_append, List.length_drop] at hl
  omega

/-- A piece is the part of a text between two positions, and is not empty. -/
structure Spans (text : List Char) (start : Nat) (piece : List Char) (stop : Nat) : Prop where
  /-- There is a character in it. -/
  nonempty : piece ≠ []
  /-- It is as long as the positions are apart. -/
  stop_eq : stop = start + piece.length
  /-- Its characters are those between the positions. -/
  extract : text.extract start stop = piece

/-- A piece at the start of what is left spans the part of the text up to its end. -/
theorem spans_of_drop_eq {text piece rest : List Char} {start : Nat} (hne : piece ≠ [])
    (h : text.drop start = piece ++ rest) : Spans text start piece (start + piece.length) := by
  refine ⟨hne, rfl, ?_⟩
  rw [List.extract_eq_take_drop, h, Nat.add_sub_cancel_left, List.take_left]

/-- A piece ends within the text. -/
theorem Spans.stop_le {text piece : List Char} {start stop : Nat}
    (h : Spans text start piece stop) : stop ≤ text.length := by
  have hl := congrArg List.length h.extract
  have hpos := List.length_pos_iff.mpr h.nonempty
  have hs := h.stop_eq
  rw [List.extract_eq_take_drop, List.length_take, List.length_drop] at hl
  omega

/-- What a rule wins with spans a part of the text. -/
theorem Wins.spans {rules : List Rule} {text piece : List Char} {rule : Rule} {start : Nat}
    (h : Wins rules (text.drop start) piece rule) :
    Spans text start piece (start + piece.length) := by
  obtain ⟨rest, hr⟩ := h.exists_rest
  exact spans_of_drop_eq h.1 hr

namespace Cursor

variable {cursor moved : Cursor} {failure : Failure}

/-- No rule wins at the character where a cursor stands. -/
structure Stuck (cursor : Cursor) (c : Char) : Prop where
  /-- This is the character. -/
  char : cursor.text[cursor.position]? = some c
  /-- There is no match that is not empty. -/
  none : NoneWins cursor.rules cursor.rest

/-- What is told of a character where a cursor is stuck. -/
def complaint (cursor : Cursor) (c : Char) : Failure :=
  .diagnostic (.unrecognized cursor.position (String.singleton c))

/-- A cursor goes forward: it keeps its text and its rules, and its position does not come
before where it was, nor beyond the end of the text. -/
structure Forward (cursor moved : Cursor) : Prop where
  /-- The text stays. -/
  text : moved.text = cursor.text
  /-- The rules stay. -/
  rules : moved.rules = cursor.rules
  /-- It does not go back. -/
  le : cursor.position ≤ moved.position
  /-- It does not go beyond the end. -/
  le_max : moved.position ≤ max cursor.position cursor.text.length

/-- How a pattern is tried: the answer, and the cursor afterwards. -/
inductive Tries (cursor : Cursor) (pattern : Pattern) :
    Except Failure (Option String) → Cursor → Prop where
  /-- The cursor moves over the piece that the pattern matches. -/
  | matched {piece : List Char} (hm : pattern.Matches cursor.rest piece)
    (hs : Spans cursor.text cursor.position piece (cursor.advance piece).position) :
    Tries cursor pattern (.ok (some (String.ofList piece))) (cursor.advance piece)
  /-- Without a match it stays. -/
  | unmatched : Tries cursor pattern (.ok none) cursor
  /-- At the end of the text nothing is tried. -/
  | finished (h : cursor.isFinished = true) : Tries cursor pattern (.error .endOfText) cursor

/-- How a cursor lexes once: the answer, and the cursor afterwards. -/
inductive Steps (cursor : Cursor) : Except Failure (List Token) → Cursor → Prop where
  /-- It moves over the piece of the rule that wins, which builds the tokens. -/
  | accepted {piece : List Char} {rule : Rule} {tokens : List Token}
    (win : Wins cursor.rules cursor.rest piece rule)
    (hs : Spans cursor.text cursor.position piece (cursor.advance piece).position)
    (hb : rule.build (String.ofList piece) = some tokens) :
    Steps cursor (.ok tokens) (cursor.advance piece)
  /-- It moves over the piece also if the rule rejects it. -/
  | rejected {piece : List Char} {rule : Rule}
    (win : Wins cursor.rules cursor.rest piece rule)
    (hs : Spans cursor.text cursor.position piece (cursor.advance piece).position)
    (hb : rule.build (String.ofList piece) = none) :
    Steps cursor (.error (.badNumeral (String.ofList piece))) (cursor.advance piece)
  /-- At a character where no rule wins it stays. -/
  | unrecognized {c : Char} (h : cursor.Stuck c) : Steps cursor (.error (cursor.complaint c)) cursor
  /-- At the end of the text it stays. -/
  | finished {failure : Failure} (h : cursor.isFinished = true)
    (hf : failure = .endOfText ∨ failure = .pastEnd) : Steps cursor (.error failure) cursor

/-- Lexing fails: with a character where no rule wins, with a piece that is rejected, or
later, behind a match. -/
inductive Fails : Cursor → Failure → Cursor → Prop where
  /-- There is a character, but no rule wins. -/
  | unrecognized {cursor : Cursor} {c : Char} (h : cursor.Stuck c) :
    Fails cursor (cursor.complaint c) cursor
  /-- The piece of the match is rejected. -/
  | rejected {cursor : Cursor} {found : Match} (hm : cursor.nextMatch? = some found)
    (hb : found.built = none) :
    Fails cursor (.badNumeral (String.ofList found.piece)) (cursor.advance found.piece)
  /-- It fails behind the match. -/
  | later {cursor moved : Cursor} {found : Match} {failure : Failure}
    (hm : cursor.nextMatch? = some found)
    (rest : Fails (cursor.advance found.piece) failure moved) : Fails cursor failure moved

/-- A cursor that passes matches goes forward. -/
theorem Passes.forward {chain : List Match} (h : cursor.Passes chain moved) :
    cursor.Forward moved where
  text := h.text
  rules := h.rules
  le := by
    rw [h.tiles.stop_eq]
    exact Nat.le_add_right _ _
  le_max := h.tiles.stop_le

/-- Trying a pattern goes so. -/
theorem tries_consume (cursor : Cursor) (pattern : Pattern) :
    cursor.Tries pattern (cursor.consume pattern).1 (cursor.consume pattern).2 := by
  rw [consume]
  by_cases hf : cursor.isFinished = true
  · rw [if_pos hf]
    exact .finished hf
  · rw [if_neg hf]
    cases hp : pattern.piece? cursor.rest with
    | none => exact .unmatched
    | some piece =>
      obtain ⟨hne, hm⟩ := Pattern.piece?_eq_some_iff.mp hp
      obtain ⟨rest, hr⟩ := hm.exists_rest
      exact .matched hm (spans_of_drop_eq hne hr)

namespace Tries

variable {pattern : Pattern} {answer : Except Failure (Option String)}

/-- A cursor that tries a pattern goes forward. -/
theorem forward (h : cursor.Tries pattern answer moved) : cursor.Forward moved := by
  cases h with
  | matched hm hs =>
    exact ⟨rfl, rfl, Nat.le_add_right _ _, hs.stop_le.trans (Nat.le_max_right _ _)⟩
  | unmatched => exact ⟨rfl, rfl, Nat.le_refl _, Nat.le_max_left _ _⟩
  | finished hf => exact ⟨rfl, rfl, Nat.le_refl _, Nat.le_max_left _ _⟩

/-- Without a match it stays. -/
theorem eq_self (h : cursor.Tries pattern answer moved)
    (hn : ∀ piece, answer ≠ .ok (some piece)) : moved = cursor := by
  cases h with
  | matched hm hs => exact absurd rfl (hn _)
  | unmatched => rfl
  | finished hf => rfl

/-- The only failure is that there is no text left. -/
theorem eq_endOfText (h : cursor.Tries pattern (.error failure) moved) :
    failure = .endOfText := by
  cases h with
  | finished hf => rfl

end Tries

/-- Without a match a cursor is at the end of the text, or stuck. -/
theorem isFinished_or_stuck (h : cursor.nextMatch? = none) :
    cursor.isFinished = true ∨
      ∃ c, cursor.Stuck c ∧ cursor.next = (.error (cursor.complaint c), cursor) := by
  by_cases hf : cursor.isFinished = true
  · exact Or.inl hf
  · obtain ⟨c, hc, hn⟩ := next_of_unrecognized hf h
    exact Or.inr ⟨c, ⟨hc, nextMatch?_eq_none_iff.mp h⟩, hn⟩

/-- Lexing once goes so. -/
theorem steps_next (cursor : Cursor) : cursor.Steps cursor.next.1 cursor.next.2 := by
  cases hm : cursor.nextMatch? with
  | some found =>
    obtain ⟨rule, win, hf⟩ := exists_wins hm
    have hb : found.built = rule.build (String.ofList found.piece) := congrArg Match.built hf
    rw [next_of_match hm, Match.answer]
    cases hbuilt : found.built with
    | none => exact .rejected win win.spans (hb.symm.trans hbuilt)
    | some tokens => exact .accepted win win.spans (hb.symm.trans hbuilt)
  | none =>
    rcases isFinished_or_stuck hm with hf | ⟨c, hs, hn⟩
    · rw [next_of_finished hf]
      refine .finished hf ?_
      split
      · exact Or.inr rfl
      · exact Or.inl rfl
    · rw [hn]
      exact .unrecognized hs

/-- Lexing once fails as lexing does, or there is no text left. -/
theorem Steps.fails (h : Steps cursor (.error failure) moved) :
    Fails cursor failure moved ∨ failure = .endOfText ∨ failure = .pastEnd := by
  cases h with
  | @rejected piece rule win hs hb =>
    have hm : cursor.nextMatch? =
        some ⟨cursor.position, piece, rule.build (String.ofList piece)⟩ := by
      rw [nextMatch?, winner?_eq_some_iff.mpr win]
      rfl
    exact Or.inl (.rejected hm hb)
  | unrecognized h => exact Or.inl (.unrecognized h)
  | finished h hf => exact Or.inr hf

namespace Fails

/-- A cursor that fails has passed the matches before, and the one that is rejected. -/
theorem exists_passes (h : Fails cursor failure moved) : ∃ chain, cursor.Passes chain moved := by
  induction h with
  | unrecognized h => exact ⟨[], .refl _⟩
  | rejected hm hb => exact ⟨_, passes_of_match hm⟩
  | later hm rest ih =>
    obtain ⟨chain, hp⟩ := ih
    exact ⟨_, (passes_of_match hm).trans hp⟩

/-- Told of a character, it is stuck there. -/
theorem exists_stuck {position : Int} {character : String}
    (h : Fails cursor (.diagnostic (.unrecognized position character)) moved) :
    ∃ c, moved.Stuck c ∧
      Failure.diagnostic (.unrecognized position character) = moved.complaint c := by
  generalize hf : Failure.diagnostic (.unrecognized position character) = failure at h ⊢
  induction h with
  | unrecognized h => exact ⟨_, h, rfl⟩
  | rejected hm hb => cases hf
  | later hm rest ih => exact ih hf

/-- Told of a piece, it stands behind it, and the rule that wins with it rejects it. -/
theorem exists_rejected {piece : String} (h : Fails cursor (.badNumeral piece) moved) :
    ∃ start rule, Wins cursor.rules (cursor.text.drop start) piece.toList rule ∧
      rule.build piece = none ∧ cursor.position ≤ start ∧
      Spans cursor.text start piece.toList moved.position := by
  generalize hf : Failure.badNumeral piece = failure at h
  induction h with
  | unrecognized h => cases hf
  | @rejected cursor found hm hb =>
    obtain ⟨rule, win, hfound⟩ := exists_wins hm
    rw [hfound] at hb
    cases hf
    rw [String.toList_ofList]
    exact ⟨cursor.position, rule, win, hb, Nat.le_refl _, win.spans⟩
  | later hm rest ih =>
    obtain ⟨start, rule, win, hb, hle, hs⟩ := ih hf
    exact ⟨start, rule, win, hb, Nat.le_of_add_right_le hle, hs⟩

end Fails

/-- A search that fails is lexing that fails. -/
theorem Search.fails {chain : List Match} (h : Search cursor chain (.error failure) moved) :
    Fails cursor failure moved := by
  generalize ha : Except.error failure = answer at h
  induction h with
  | finished hf => cases ha
  | unrecognized hc hm =>
    cases ha
    exact .unrecognized ⟨hc, nextMatch?_eq_none_iff.mp hm⟩
  | rejected hm hb =>
    cases ha
    exact .rejected hm hb
  | token hm hb => cases ha
  | silent hm hb rest ih => exact .later hm (ih ha)

/-- Lexing to the end of the text passes matches, or fails. -/
theorem passes_or_fails_tokens (cursor : Cursor) :
    (∃ chain tokens moved, cursor.tokens = (.ok tokens, moved) ∧ cursor.Passes chain moved) ∨
      ∃ failure moved, cursor.tokens = (.error failure, moved) ∧ Fails cursor failure moved := by
  induction cursor using matchesToToken.induct with
  | case1 cursor hm =>
    by_cases hf : cursor.isFinished = true
    · exact Or.inl ⟨[], [], cursor, tokens_of_finished hf, .refl cursor⟩
    · obtain ⟨c, hs, hn⟩ := (isFinished_or_stuck hm).resolve_left hf
      exact Or.inr ⟨_, _, tokens_of_next_error hf hn, .unrecognized hs⟩
  | case2 cursor found hm ih =>
    have hu := not_isFinished_of_match hm
    have hn := next_of_match hm
    cases hb : found.built with
    | none =>
      rw [Match.answer, hb] at hn
      exact Or.inr ⟨_, _, tokens_of_next_error hu hn, .rejected hm hb⟩
    | some list =>
      rw [Match.answer, hb] at hn
      rw [tokens_of_next_ok hu hn]
      rcases ih with ⟨chain, tokens, moved, ht, hp⟩ | ⟨failure, moved, ht, hf⟩
      · rw [ht]
        exact Or.inl ⟨_, _, _, rfl, (passes_of_match hm).trans hp⟩
      · rw [ht]
        exact Or.inr ⟨_, _, rfl, .later hm hf⟩

/-- In either case it passes matches. -/
theorem exists_passes_tokens (cursor : Cursor) : ∃ chain, cursor.Passes chain cursor.tokens.2 := by
  rcases cursor.passes_or_fails_tokens with
    ⟨chain, tokens, moved, ht, hp⟩ | ⟨failure, moved, ht, hf⟩
  · rw [ht]
    exact ⟨chain, hp⟩
  · rw [ht]
    exact hf.exists_passes

/-- Without tokens it fails. -/
theorem fails_tokens (h : cursor.tokens.1 = .error failure) :
    Fails cursor failure cursor.tokens.2 := by
  rcases cursor.passes_or_fails_tokens with ⟨chain, tokens, moved, ht, hp⟩ | ⟨cause, moved, ht, hf⟩
  · rw [ht] at h
    cases h
  · rw [ht] at h ⊢
    cases h
    exact hf

namespace Stuck

variable {c : Char}

/-- A stuck cursor is within its text. -/
theorem position_lt (h : cursor.Stuck c) : cursor.position < cursor.text.length :=
  (List.getElem?_eq_some_iff.mp h.char).1

/-- There is text left. -/
theorem not_isFinished (h : cursor.Stuck c) : ¬ cursor.isFinished = true := by
  have hl := h.position_lt
  simp only [isFinished, decide_eq_true_eq]
  omega

/-- Asked for the next tokens it complains. -/
theorem next_eq (h : cursor.Stuck c) : cursor.next = (.error (cursor.complaint c), cursor) := by
  obtain ⟨d, hd, hn⟩ := (isFinished_or_stuck (nextMatch?_eq_none_iff.mpr h.none)).resolve_left
    h.not_isFinished
  cases h.char.symm.trans hd.char
  exact hn

/-- Asked for all tokens it complains. -/
theorem tokens_eq (h : cursor.Stuck c) :
    cursor.tokens = (.error (cursor.complaint c), cursor) :=
  tokens_of_next_error h.not_isFinished h.next_eq

/-- Asked for one token it complains. -/
theorem nextToken_eq (h : cursor.Stuck c) :
    cursor.nextToken = (.error (cursor.complaint c), cursor) := by
  rw [nextToken_of_unfinished h.not_isFinished, h.next_eq]

/-- A feed with nothing pending passes the complaint on and ends. -/
theorem pull_eq (h : cursor.Stuck c) :
    (Feed.active []).pull cursor = (.error (cursor.complaint c), .ended, cursor) := by
  rw [Feed.pull, h.nextToken_eq]

/-- Whatever feed is asked, the cursor stays. -/
theorem pull_cursor (h : cursor.Stuck c) (feed : Feed) : (feed.pull cursor).2.2 = cursor := by
  match feed with
  | .ended => rfl
  | .active (token :: later) => rfl
  | .active [] => rw [h.pull_eq]

end Stuck

end Cursor

/-- A pull without a token is lexing that fails, or there is no text left for it. -/
theorem Feed.Pulls.fails {feed later : Feed} {cursor moved : Cursor} {chain : List Match}
    {failure : Failure} (h : Feed.Pulls feed cursor chain (.error failure) later moved) :
    cursor.Fails failure moved ∨ failure = .endOfText := by
  cases h with
  | ended => exact Or.inr rfl
  | finished hs => exact Or.inr rfl
  | failed hs => exact Or.inl hs.fails

namespace Session

/-- An action moves a shared lexer otherwise than by lexing: a seek, or a pattern that
matches. -/
def Disturbs (session : Session) (action : Action) : Prop :=
  (∃ position, action = .seek position) ∨
    ∃ pattern piece, action = .consume pattern ∧
      (session.perform action).1 = .ok (.piece (some piece))

/-- No action of a list does so. -/
def Undisturbed : Session → List Action → Prop
  | _, [] => True
  | session, action :: actions =>
    ¬ session.Disturbs action ∧ (session.perform action).2.Undisturbed actions

/-- Whoever asks for tokens is told of this failure: the lexer itself, once or to the end of
the text, and each feed with nothing pending. -/
def Complains (session : Session) (failure : Failure) : Prop :=
  (session.perform .next).1 = .error failure ∧ (session.perform .tokens).1 = .error failure ∧
    ∀ number, session.feed number = .active [] → (session.perform (.pull number)).1 = .error failure

/-- What an action does to the place where a lexer stands. -/
structure Moves (session : Session) (action : Action) : Prop where
  /-- Unless it is told to go somewhere, the lexer goes forward. -/
  forward : (∀ position, action ≠ .seek position) →
    session.cursor.Forward (session.perform action).2.cursor
  /-- A pattern is tried where the lexer stands. -/
  consume : ∀ pattern, action = .consume pattern → ∃ answer,
    session.cursor.Tries pattern answer (session.perform action).2.cursor ∧
      (session.perform action).1 = answer.map .piece
  /-- Lexing once takes one step. -/
  next : action = .next → ∃ answer,
    session.cursor.Steps answer (session.perform action).2.cursor ∧
      (session.perform action).1 = answer.map .tokens
  /-- Told of a piece, the lexer stands behind it, and the rule that wins with it rejects it. -/
  rejected : ∀ piece, (session.perform action).1 = .error (.badNumeral piece) →
    ∃ start rule,
      Wins session.cursor.rules (session.cursor.text.drop start) piece.toList rule ∧
        rule.build piece = none ∧ session.cursor.position ≤ start ∧
        Spans session.cursor.text start piece.toList (session.perform action).2.cursor.position
  /-- Told of a character, the lexer is stuck at it, and whoever asks for tokens is told the
  same until the lexer is disturbed. -/
  unrecognized : ∀ position character,
    (session.perform action).1 = .error (.diagnostic (.unrecognized position character)) →
    position = (session.perform action).2.cursor.position ∧
      (session.perform action).2.cursor.position < session.cursor.text.length ∧
      (∃ c, (session.perform action).2.cursor.Stuck c ∧ character = String.singleton c) ∧
      ∀ actions, (session.perform action).2.Undisturbed actions →
        ((session.perform action).2.after actions).Complains
          (.diagnostic (.unrecognized position character))

variable {session : Session} {action : Action} {c : Char}

/-- Lexing once acts on the cursor. -/
theorem perform_next (session : Session) :
    session.perform .next =
      (session.cursor.next.1.map .tokens, ⟨session.cursor.next.2, session.feeds⟩) := rfl

/-- Lexing to the end of the text does. -/
theorem perform_tokens (session : Session) :
    session.perform .tokens =
      (session.cursor.tokens.1.map .tokens, ⟨session.cursor.tokens.2, session.feeds⟩) := rfl

/-- Trying a pattern does. -/
theorem perform_consume (session : Session) (pattern : Pattern) :
    session.perform (.consume pattern) =
      ((session.cursor.consume pattern).1.map .piece,
        ⟨(session.cursor.consume pattern).2, session.feeds⟩) := rfl

/-- Whatever is asked but a seek, the lexer goes forward. -/
theorem seek_or_forward (session : Session) (action : Action) :
    (∃ position, action = .seek position) ∨
      session.cursor.Forward (session.perform action).2.cursor := by
  cases action with
  | next => exact Or.inr (session.passes_made .next).forward
  | tokens =>
    obtain ⟨chain, hp⟩ := session.cursor.exists_passes_tokens
    exact Or.inr hp.forward
  | consume pattern => exact Or.inr (session.cursor.tries_consume pattern).forward
  | generate => exact Or.inr (session.passes_made .generate).forward
  | pull number => exact Or.inr (session.passes_made (.pull number)).forward
  | seek position => exact Or.inl ⟨position, rfl⟩

/-- Whatever is asked, the text and the rules stay. -/
theorem text_and_rules_perform (session : Session) (action : Action) :
    (session.perform action).2.cursor.text = session.cursor.text ∧
      (session.perform action).2.cursor.rules = session.cursor.rules := by
  rcases session.seek_or_forward action with ⟨position, rfl⟩ | hf
  · exact ⟨rfl, rfl⟩
  · exact ⟨hf.text, hf.rules⟩

/-- They stay whatever is asked one after another. -/
theorem text_and_rules_after (session : Session) (actions : List Action) :
    (session.after actions).cursor.text = session.cursor.text ∧
      (session.after actions).cursor.rules = session.cursor.rules := by
  induction actions generalizing session with
  | nil => exact ⟨rfl, rfl⟩
  | cons action actions ih =>
    obtain ⟨ht, hr⟩ := session.text_and_rules_perform action
    obtain ⟨htext, hrules⟩ := ih (session.perform action).2
    exact ⟨htext.trans ht, hrules.trans hr⟩

/-- An action without an answer failed to lex, or there was no text left for it. -/
theorem fails_of_error {failure : Failure} (h : (session.perform action).1 = .error failure) :
    session.cursor.Fails failure (session.perform action).2.cursor ∨
      failure = .endOfText ∨ failure = .pastEnd := by
  cases action with
  | next =>
    have hs := session.cursor.steps_next
    rw [perform_next] at h ⊢
    rw [error_of_map_error h] at hs
    exact hs.fails
  | tokens =>
    rw [perform_tokens] at h ⊢
    exact Or.inl (Cursor.fails_tokens (error_of_map_error h))
  | consume pattern =>
    have ht := session.cursor.tries_consume pattern
    rw [perform_consume] at h
    rw [error_of_map_error h] at ht
    exact Or.inr (Or.inl ht.eq_endOfText)
  | generate => cases h
  | pull number =>
    have hp := (session.feed number).pulls_pull session.cursor
    rw [perform_pull] at h ⊢
    rw [error_of_map_error h] at hp
    exact hp.fails.imp_right Or.inl
  | seek position => cases h

/-- A stuck lexer stays where it is until it is disturbed. -/
theorem cursor_perform_of_stuck (h : session.cursor.Stuck c) (hd : ¬ session.Disturbs action) :
    (session.perform action).2.cursor = session.cursor := by
  cases action with
  | next => rw [perform_next, h.next_eq]
  | tokens => rw [perform_tokens, h.tokens_eq]
  | consume pattern =>
    have ht := session.cursor.tries_consume pattern
    have hn : ∀ piece, (session.cursor.consume pattern).1 ≠ .ok (some piece) := by
      intro piece he
      exact hd (Or.inr ⟨pattern, piece, rfl, by rw [perform_consume, he]; rfl⟩)
    exact ht.eq_self hn
  | generate => rfl
  | pull number =>
    rw [perform_pull]
    exact h.pull_cursor (session.feed number)
  | seek position => exact absurd (Or.inl ⟨position, rfl⟩) hd

/-- So it does for any number of actions. -/
theorem cursor_after_of_stuck (h : session.cursor.Stuck c) {actions : List Action}
    (hu : session.Undisturbed actions) : (session.after actions).cursor = session.cursor := by
  induction actions generalizing session with
  | nil => rfl
  | cons action actions ih =>
    have hs := cursor_perform_of_stuck h hu.1
    exact (ih (hs ▸ h) hu.2).trans hs

/-- Whoever asks it for tokens is told why it is stuck. -/
theorem complains_of_stuck (h : session.cursor.Stuck c) :
    session.Complains (session.cursor.complaint c) := by
  refine ⟨?_, ?_, fun number hf => ?_⟩
  · rw [perform_next, h.next_eq]
    rfl
  · rw [perform_tokens, h.tokens_eq]
    rfl
  · rw [perform_pull, hf, h.pull_eq]
    rfl

/-- Every action moves the lexer so. -/
theorem moves_perform (session : Session) (action : Action) : session.Moves action where
  forward := by
    intro hs
    rcases session.seek_or_forward action with ⟨position, he⟩ | hf
    · exact absurd he (hs position)
    · exact hf
  consume := by
    rintro pattern rfl
    exact ⟨_, session.cursor.tries_consume pattern, rfl⟩
  next := by
    rintro rfl
    exact ⟨_, session.cursor.steps_next, rfl⟩
  rejected := by
    intro piece h
    rcases fails_of_error h with hf | he | he
    · exact hf.exists_rejected
    · cases he
    · cases he
  unrecognized := by
    intro position character h
    rcases fails_of_error h with hf | he | he
    · obtain ⟨c, hs, hc⟩ := hf.exists_stuck
      obtain ⟨hp, hcharacter⟩ := Diagnostic.unrecognized.inj (Failure.diagnostic.inj hc)
      have hl := hs.position_lt
      rw [(session.text_and_rules_perform action).1] at hl
      refine ⟨hp, hl, ⟨c, hs, hcharacter⟩, fun actions hu => ?_⟩
      have hcursor := cursor_after_of_stuck hs hu
      rw [hc, ← hcursor]
      exact complains_of_stuck (hcursor ▸ hs)
    · cases he
    · cases he

/-- Whatever was asked of a lexer from its start on, it keeps its text and its rules, and the
next action moves it as follows. Unless it is told to, it does not move back, nor beyond the
end of the text. A pattern that matches, and lexing once, move it over a piece that is not
empty and that is the text between the two positions; without a match, and at the end of
the text, it stays. Told of a rejected piece it stands right behind it. Told of a character
it stands at that character, where no rule wins, and whoever asks for tokens is told the
same until there is a seek or a pattern that matches. -/
theorem moves_after (rules : List Rule) (text : String) (actions : List Action) :
    ∃ session, (start rules text).after actions = session ∧
      session.cursor.text = text.toList ∧ session.cursor.rules = rules ∧
      ∀ action, session.Moves action := by
  obtain ⟨ht, hr⟩ := (start rules text).text_and_rules_after actions
  exact ⟨_, rfl, ht, hr, moves_perform _⟩

/-- A feed that has handed out the first token of a text, and then a client that asks for all
tokens, and then the feed again after a pattern that does not match: the last two are told
of the same foreign character. -/
theorem moves_after_first_token :
    ∃ session, (start Rule.standard "1 x").after [.generate, .pull 0] = session ∧
      (session.perform .tokens).1 = .error (.diagnostic (.unrecognized 2 "x")) ∧
      (((session.perform .tokens).2.after [.consume (.literal ['y'])]).perform (.pull 0)).1 =
        .error (.diagnostic (.unrecognized 2 "x")) := by
  obtain ⟨session, rfl, -, -, hm⟩ := moves_after Rule.standard "1 x" [.generate, .pull 0]
  have he : (((start Rule.standard "1 x").after [.generate, .pull 0]).perform .tokens).1 =
      .error (.diagnostic (.unrecognized 2 "x")) := by decide +kernel
  obtain ⟨-, -, -, hc⟩ := (hm .tokens).unrecognized 2 "x" he
  generalize hs : (((start Rule.standard "1 x").after [.generate, .pull 0]).perform .tokens).2 =
    stuck at hc
  have hnone : (stuck.perform (.consume (.literal ['y']))).1 = .ok (.piece none) := by
    rw [← hs]
    decide +kernel
  have hfeed : (stuck.after [.consume (.literal ['y'])]).feed 0 = .active [] := by
    rw [← hs]
    decide +kernel
  refine ⟨_, rfl, he, ?_⟩
  rw [hs]
  refine (hc [.consume (.literal ['y'])] ⟨?_, trivial⟩).2.2 0 hfeed
  rintro (⟨position, hp⟩ | ⟨pattern, piece, hp, ho⟩)
  · cases hp
  · cases hp
    rw [hnone] at ho
    cases ho

end Session

end PostfixArithmetic
