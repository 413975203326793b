import PostfixArithmetic.Proofs.Lexer.Safety

/-!
# Tables in another order

The first rule of a table with a match wins, so in general the order of the rules decides.
It does not if no two rules can match at the same character: then one rule at most matches
an input, and it wins wherever it stands. A lexer with the same rules in another order
gives the same answers at the same positions, whatever it is asked.
-/

namespace PostfixArithmetic

/-- A match that is not empty can begin with a character. -/
def Pattern.Begins (pattern : Pattern) (c : Char) : Prop :=
  ∃ rest piece, pattern.piece? (c :: rest) = some piece

/-- No character can begin a match of both rules. -/
def Rule.Apart (a b : Rule) : Prop :=
  ∀ c, ¬ (a.pattern.Begins c ∧ b.pattern.Begins c)

/-- Tables that have the same winner for every input, and have rules at all or have none. -/
structure Interchangeable (rules other : List Rule) : Prop where
  /-- Both are empty, or neither is. -/
  isEmpty : other.isEmpty = rules.isEmpty
  /-- The same rule wins with the same piece. -/
  winner : ∀ input, winner? other input = winner? rules input

/-- What a pattern matches begins with a character that can begin a match. -/
theorem Pattern.exists_begins {pattern : Pattern} {input piece : List Char}
    (h : pattern.piece? input = some piece) :
    ∃ c rest, input = c :: rest ∧ pattern.Begins c := by
  obtain ⟨hne, rest, rfl⟩ := Pattern.nonempty_prefix_of_piece h
  obtain ⟨c, others, rfl⟩ := List.exists_cons_of_ne_nil hne
  exact ⟨c, others ++ rest, rfl, others ++ rest, _, h⟩

/-- Only its first character can begin a match of a literal. -/
theorem Pattern.begins_literal_iff {characters : List Char} {c : Char} :
    (literal characters).Begins c ↔ characters.head? = some c := by
  constructor
  · rintro ⟨rest, piece, hp⟩
    obtain ⟨hne, hm⟩ := Pattern.piece?_eq_some_iff.mp hp
    obtain ⟨d, others, rfl⟩ := List.exists_cons_of_ne_nil hne
    generalize he : c :: rest = input at hm
    cases hm with
    | literal _ rest =>
      cases he
      rfl
  · intro h
    obtain ⟨others, rfl⟩ := List.head?_eq_some_iff.mp h
    exact ⟨others, _, Pattern.piece?_literal_self (List.cons_ne_nil c others)⟩

/-- The members of a run can begin its matches. -/
theorem Pattern.begins_run_iff {members : Char → Bool} {least : Nat} {c : Char} :
    (run members least).Begins c ↔ members c = true := by
  constructor
  · rintro ⟨rest, piece, hp⟩
    obtain ⟨hne, hm⟩ := Pattern.piece?_eq_some_iff.mp hp
    obtain ⟨d, others, rfl⟩ := List.exists_cons_of_ne_nil hne
    generalize he : c :: rest = input at hm
    cases hm with
    | run all stop enough =>
      cases he
      exact all c List.mem_cons_self
  · exact fun h => ⟨_, _, Pattern.piece?_replicate h least⟩

/-- Where different rules are apart, whatever rule matches is the winner. -/
theorem winner?_eq_some_iff_of_apart {rules : List Rule}
    (h : ∀ a ∈ rules, ∀ b ∈ rules, a ≠ b → a.Apart b) {input piece : List Char} {rule : Rule} :
    winner? rules input = some (piece, rule) ↔
      rule ∈ rules ∧ rule.pattern.piece? input = some piece := by
  refine ⟨mem_and_piece_of_winner, fun ⟨hr, hp⟩ => ?_⟩
  cases hw : winner? rules input with
  | none =>
    rw [winner?_eq_none_iff.mp hw rule hr] at hp
    cases hp
  | some found =>
    obtain ⟨taken, other⟩ := found
    obtain ⟨ho, ht⟩ := mem_and_piece_of_winner hw
    have hsame : other = rule := by
      by_contra hne
      obtain ⟨c, rest, rfl, hc⟩ := Pattern.exists_begins ht
      obtain ⟨d, others, he, hd⟩ := Pattern.exists_begins hp
      cases he
      exact h other ho rule hr hne c ⟨hc, hd⟩
    rw [hsame] at ht
    rw [hsame, Option.some.inj (ht.symm.trans hp)]

/-- So tables of the same rules are interchangeable. -/
theorem interchangeable_of_perm {rules other : List Rule}
    (h : ∀ a ∈ rules, ∀ b ∈ rules, a ≠ b → a.Apart b) (hp : other.Perm rules) :
    Interchangeable rules other := by
  have ho : ∀ a ∈ other, ∀ b ∈ other, a ≠ b → a.Apart b := fun a ha b hb =>
    h a (hp.mem_iff.mp ha) b (hp.mem_iff.mp hb)
  refine ⟨?_, fun input => Option.ext fun found => ?_⟩
  · rw [Bool.eq_iff_iff, List.isEmpty_iff, List.isEmpty_iff]
    exact ⟨fun he => (he ▸ hp).nil_eq.symm, fun he => (he ▸ hp).eq_nil⟩
  · obtain ⟨piece, rule⟩ := found
    rw [winner?_eq_some_iff_of_apart ho, winner?_eq_some_iff_of_apart h, hp.mem_iff]

/-- Interchangeable tables split every input alike. -/
theorem Interchangeable.scan_eq {rules other : List Rule} (h : Interchangeable rules other)
    (position : Nat) (input : List Char) :
    scan other position input = scan rules position input := by
  induction input using winner_induction rules generalizing position with
  | nil => rw [scan, scan]
  | none c rest hw => rw [scan_of_no_winner hw, scan_of_no_winner ((h.winner _).trans hw)]
  | some piece rest rule hw ih =>
    cases hb : rule.build (String.ofList piece) with
    | none =>
      have hne := (Pattern.nonempty_prefix_of_piece (mem_and_piece_of_winner hw).2).1
      obtain ⟨c, others, rfl⟩ := List.exists_cons_of_ne_nil hne
      rw [List.cons_append] at hw ⊢
      rw [scan_of_rejected hw hb, scan_of_rejected ((h.winner _).trans hw) hb]
    | some tokens => rw [scan_piece hw hb, scan_piece ((h.winner _).trans hw) hb, ih]

namespace Cursor

variable {cursor : Cursor} {other : List Rule}

/-- A cursor with another table of rules. -/
def withRules (cursor : Cursor) (rules : List Rule) : Cursor :=
  { cursor with rules }

/-- The same match is made with an interchangeable table. -/
theorem nextMatch?_withRules (h : Interchangeable cursor.rules other) :
    (cursor.withRules other).nextMatch? = cursor.nextMatch? := by
  have hw : winner? (cursor.withRules other).rules (cursor.withRules other).rest =
      winner? cursor.rules cursor.rest := h.winner cursor.rest
  rw [nextMatch?, nextMatch?, hw]
  rfl

/-- Lexing once gives the same answer and moves to the same place. -/
theorem next_withRules (h : Interchangeable cursor.rules other) :
    (cursor.withRules other).next = (cursor.next.1, cursor.next.2.withRules other) := by
  have hm := nextMatch?_withRules h
  cases hn : cursor.nextMatch? with
  | some found =>
    rw [hn] at hm
    rw [next_of_match hm, next_of_match hn]
    rfl
  | none =>
    rw [hn] at hm
    by_cases hf : cursor.isFinished = true
    · have hfo : (cursor.withRules other).isFinished = true := hf
      have he : (cursor.withRules other).rules.isEmpty = cursor.rules.isEmpty := h.isEmpty
      rw [next_of_finished hfo, next_of_finished hf, he]
    · have hfo : ¬ (cursor.withRules other).isFinished = true := hf
      obtain ⟨c, hc, he⟩ := next_of_unrecognized hf hn
      obtain ⟨d, hd, heo⟩ := next_of_unrecognized hfo hm
      cases hc.symm.trans hd
      rw [heo, he]
      rfl

/-- Lexing to the end of the text does. -/
theorem tokens_withRules (h : Interchangeable cursor.rules other) :
    (cursor.withRules other).tokens = (cursor.tokens.1, cursor.tokens.2.withRules other) := by
  have hs : scan (cursor.withRules other).rules (cursor.withRules other).position
      (cursor.withRules other).rest = scan cursor.rules cursor.position cursor.rest :=
    h.scan_eq cursor.position cursor.rest
  rw [tokens, tokens, hs]
  rfl

/-- Trying a pattern does, since no rule is involved. -/
theorem consume_withRules (cursor : Cursor) (other : List Rule) (pattern : Pattern) :
    (cursor.withRules other).consume pattern =
      ((cursor.consume pattern).1, (cursor.consume pattern).2.withRules other) := by
  have hf : (cursor.withRules other).isFinished = cursor.isFinished := rfl
  have hr : (cursor.withRules other).rest = cursor.rest := rfl
  rw [consume, consume, hf, hr]
  split
  · rfl
  · split <;> rfl

/-- Searching for a token does. -/
theorem nextToken_withRules (h : Interchangeable cursor.rules other) :
    (cursor.withRules other).nextToken =
      (cursor.nextToken.1, cursor.nextToken.2.withRules other) := by
  induction cursor using matchesToToken.induct with
  | case1 cursor hm =>
    by_cases hf : cursor.isFinished = true
    · have hfo : (cursor.withRules other).isFinished = true := hf
      rw [nextToken_of_finished hf, nextToken_of_finished hfo]
    · have hfo : ¬ (cursor.withRules other).isFinished = true := hf
      obtain ⟨failure, hn⟩ := next_of_no_match hm
      rw [nextToken_of_unfinished hf, nextToken_of_unfinished hfo, next_withRules h, hn]
  | case2 cursor found hm ih =>
    have hf := not_isFinished_of_match hm
    have hfo : ¬ (cursor.withRules other).isFinished = true := hf
    rw [nextToken_of_unfinished hf, nextToken_of_unfinished hfo, next_withRules h,
      next_of_match hm, Match.answer]
    cases found.built with
    | none => rfl
    | some tokens =>
      cases tokens with
      | nil => exact ih h
      | cons token later => rfl

end Cursor

/-- A feed that is pulled does. -/
theorem Feed.pull_withRules {cursor : Cursor} {other : List Rule}
    (h : Interchangeable cursor.rules other) (feed : Feed) :
    feed.pull (cursor.withRules other) =
      ((feed.pull cursor).1, (feed.pull cursor).2.1,
        (feed.pull cursor).2.2.withRules other) := by
  cases feed with
  | ended => rfl
  | active pending =>
    cases pending with
    | cons token pending => rfl
    | nil =>
      rw [pull, pull, Cursor.nextToken_withRules h]
      obtain ⟨found, moved⟩ := cursor.nextToken
      cases found with
      | error failure => rfl
      | ok found => cases found <;> rfl

namespace Session

variable {session : Session} {other : List Rule}

/-- A session on a lexer with another table of rules. -/
def withRules (session : Session) (rules : List Rule) : Session :=
  { session with cursor := session.cursor.withRules rules }

/-- Whatever is asked, the answer is the same with an interchangeable table, and the lexer
and its feeds stand where they would. -/
theorem perform_withRules (h : Interchangeable session.cursor.rules other) (action : Action) :
    (session.withRules other).perform action =
      ((session.perform action).1, (session.perform action).2.withRules other) := by
  cases action with
  | next =>
    have hn : (session.withRules other).cursor.next = _ := Cursor.next_withRules h
    rw [perform_next, perform_next, hn]
    rfl
  | tokens =>
    have hn : (session.withRules other).cursor.tokens = _ := Cursor.tokens_withRules h
    rw [perform_tokens, perform_tokens, hn]
    rfl
  | consume pattern =>
    have hn : (session.withRules other).cursor.consume pattern = _ :=
      session.cursor.consume_withRules other pattern
    rw [perform_consume, perform_consume, hn]
    rfl
  | generate => rfl
  | pull number =>
    have hn : ((session.withRules other).feed number).pull (session.withRules other).cursor =
      _ := (session.feed number).pull_withRules h
    rw [perform_pull, perform_pull, hn]
    rfl
  | seek position => rfl

/-- So it goes on, whatever is asked one after another. -/
theorem run_withRules (h : Interchangeable session.cursor.rules other)
    (actions : List Action) :
    (session.withRules other).run actions =
      (session.run actions).map fun step => (step.1, step.2.withRules other) := by
  induction actions generalizing session with
  | nil => rfl
  | cons action actions ih =>
    have hr := (session.text_and_rules_perform action).2
    have hl : Interchangeable (session.perform action).2.cursor.rules other := hr ▸ h
    rw [run, run, perform_withRules h]
    exact congrArg (List.cons _) (ih hl)

/-- If no character can begin matches of two different rules of a table, the order of the
rules does not matter. The text is split into the same tokens, or fails in the same way;
and whatever a lexer and its feeds are asked one after another, each answer or failure is
the same, the lexer stands at the same position, and the feeds have the same tokens left. -/
theorem reordering_keeps_answers {rules other : List Rule}
    (h : ∀ a ∈ rules, ∀ b ∈ rules, a ≠ b → a.Apart b) (hp : other.Perm rules) (text : String) :
    tokenizeWith other text = tokenizeWith rules text ∧
      ∀ actions,
        ((start other text).run actions).map
            (fun step => (step.1, step.2.cursor.position, step.2.feeds)) =
          ((start rules text).run actions).map
            (fun step => (step.1, step.2.cursor.position, step.2.feeds)) := by
  have hi := interchangeable_of_perm h hp
  refine ⟨congrArg Scan.outcome (hi.scan_eq 0 text.toList), fun actions => ?_⟩
  have hs : start other text = (start rules text).withRules other := rfl
  rw [hs, run_withRules hi, List.map_map]
  rfl

/-- A rule for at least two digits and one for a sign may change places around a rule that
matches nothing: a feed and its lexer stop at the single digit all the same. -/
theorem reordering_of_two_digits :
    ((start [Rule.minus, Rule.operator (.run isAsciiDigit 2), Rule.skip (.literal [])]
          "12-3").run [.generate, .pull 0, .pull 0, .next, .pull 0, .seek 9, .next]).map
        (fun step => (step.1, step.2.cursor.position, step.2.feeds)) =
      [(.ok (.feed 0), 0, [.active []]), (.ok (.token (.operator "12")), 2, [.active []]),
        (.ok (.token (.operator "-")), 3, [.active []]),
        (.error (.diagnostic (.unrecognized 3 "3")), 3, [.active []]),
        (.error (.diagnostic (.unrecognized 3 "3")), 3, [.ended]),
        (.ok .moved, 9, [.ended]), (.error .endOfText, 9, [.ended])] := by
  have hempty : ∀ c, ¬ (Rule.skip (.literal [])).pattern.Begins c := fun c hc =>
    nomatch Pattern.begins_literal_iff.mp hc
  have hnone : ∀ rule : Rule, (Rule.skip (.literal [])).Apart rule ∧
      rule.Apart (Rule.skip (.literal [])) := fun rule =>
    ⟨fun c hc => hempty c hc.1, fun c hc => hempty c hc.2⟩
  have hsign : (Rule.operator (.run isAsciiDigit 2)).Apart Rule.minus := by
    rintro c ⟨hd, hc⟩
    cases Pattern.begins_literal_iff.mp hc
    cases Pattern.begins_run_iff.mp hd
  have h : ∀ a ∈ [Rule.operator (.run isAsciiDigit 2), Rule.skip (.literal []), Rule.minus],
      ∀ b ∈ [Rule.operator (.run isAsciiDigit 2), Rule.skip (.literal []), Rule.minus],
        a ≠ b → a.Apart b := by
    simp only [List.mem_cons, List.not_mem_nil, or_false]
    rintro a (rfl | rfl | rfl) b (rfl | rfl | rfl) hne
    · exact absurd rfl hne
    · exact (hnone _).2
    · exact hsign
    · exact (hnone _).1
    · exact absurd rfl hne
    · exact (hnone _).1
    · exact fun c hc => hsign c hc.symm
    · exact (hnone _).2
    · exact absurd rfl hne
  have hp : [Rule.minus, Rule.operator (.run isAsciiDigit 2), Rule.skip (.literal [])].Perm
      [Rule.operator (.run isAsciiDigit 2), Rule.skip (.literal []), Rule.minus] :=
    (List.perm_append_singleton Rule.minus
      [Rule.operator (.run isAsciiDigit 2), Rule.skip (.literal [])]).symm
  rw [(reordering_keeps_answers h hp "12-3").2]
  decide +kernel

end Session

end PostfixArithmetic
