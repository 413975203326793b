import PostfixArithmetic.Proofs.Lexer.Loop
import PostfixArithmetic.Proofs.Lexer.Tiling

/-!
# The matches that a cursor makes

A cursor that is asked for its next tokens makes one match, if some rule wins where it
stands. Asked for one token it makes matches until one has a token, or is rejected, or
there is no other. Either way the cursor goes from the start of the first match to the
end of the last, so that the matches tile the text between; and of these matches only
the last has tokens.
-/

namespace PostfixArithmetic

/-- The answer to a match: its tokens, or that its piece is rejected. -/
def Match.answer (found : Match) : Except Failure (List Token) :=
  match found.built with
  | none => .error (.badNumeral (String.ofList found.piece))
  | some tokens => .ok tokens

namespace Cursor

variable {cursor : Cursor} {found : Match}

/-- The match that a cursor makes, if some rule wins where it stands. -/
def nextMatch? (cursor : Cursor) : Option Match :=
  (winner? cursor.rules cursor.rest).map fun (piece, rule) =>
    ⟨cursor.position, piece, rule.build (String.ofList piece)⟩

/-- The match is that of the rule that wins. -/
theorem exists_wins (h : cursor.nextMatch? = some found) :
    ∃ rule, Wins cursor.rules cursor.rest found.piece rule ∧
      found = ⟨cursor.position, found.piece, rule.build (String.ofList found.piece)⟩ := by
  obtain ⟨⟨piece, rule⟩, hw, rfl⟩ := Option.map_eq_some_iff.mp h
  exact ⟨rule, winner?_eq_some_iff.mp hw, rfl⟩

/-- There is no match exactly if no rule wins. -/
theorem nextMatch?_eq_none_iff : cursor.nextMatch? = none ↔ NoneWins cursor.rules cursor.rest := by
  rw [nextMatch?, Option.map_eq_none_iff, winner?_eq_none_iff_noneWins]

/-- A cursor passes a chain of matches: it goes from the start of the first to the end
of the last. -/
structure Passes (cursor : Cursor) (chain : List Match) (later : Cursor) : Prop where
  /-- The text stays. -/
  text : later.text = cursor.text
  /-- The rules stay. -/
  rules : later.rules = cursor.rules
  /-- The matches lead from the one position to the other. -/
  tiles : Tiles cursor.rules cursor.text cursor.position chain later.position

/-- A cursor that stays passes no match. -/
theorem Passes.refl (cursor : Cursor) : cursor.Passes [] cursor :=
  ⟨rfl, rfl, .nil _⟩

/-- A cursor that passes one chain and then another passes both. -/
theorem Passes.trans {middle later : Cursor} {chain others : List Match}
    (h : cursor.Passes chain middle) (ho : middle.Passes others later) :
    cursor.Passes (chain ++ others) later := by
  refine ⟨ho.text.trans h.text, ho.rules.trans h.rules, h.tiles.append ?_⟩
  have ht := ho.tiles
  rw [h.rules, h.text] at ht
  exact ht

/-- A cursor that goes behind its match passes it. -/
theorem passes_of_match (h : cursor.nextMatch? = some found) :
    cursor.Passes [found] (cursor.advance found.piece) := by
  obtain ⟨rule, win, hf⟩ := exists_wins h
  refine ⟨rfl, rfl, ?_⟩
  rw [hf]
  exact .cons win (.nil _)

/-- Behind a match there is less text left. -/
theorem advance_lt (h : cursor.nextMatch? = some found) :
    cursor.text.length - (cursor.advance found.piece).position <
      cursor.text.length - cursor.position := by
  obtain ⟨rule, win, -⟩ := exists_wins h
  have hpos := List.length_pos_iff.mpr win.1
  have hl : cursor.position + found.piece.length ≤ cursor.text.length := win.add_length_le
  exact Nat.sub_lt_sub_left (by omega) (Nat.lt_add_of_pos_right hpos)

/-- There is text left where a cursor makes a match. -/
theorem not_isFinished_of_match (h : cursor.nextMatch? = some found) :
    ¬ cursor.isFinished = true := by
  have hl := advance_lt h
  simp only [isFinished, decide_eq_true_eq]
  omega

/-- The matches that a cursor makes to have a token: the first with tokens, or the first
that is rejected, comes last. -/
def matchesToToken (cursor : Cursor) : List Match :=
  match _ : cursor.nextMatch? with
  | none => []
  | some found =>
    found :: if found.built = some [] then (cursor.advance found.piece).matchesToToken else []
termination_by cursor.text.length - cursor.position
decreasing_by
  rename_i h _
  exact advance_lt h

/-- A cursor without a match makes none. -/
theorem matchesToToken_of_none (h : cursor.nextMatch? = none) : cursor.matchesToToken = [] := by
  rw [matchesToToken]
  split
  · rfl
  · rename_i hs
    rw [h] at hs
    cases hs

/-- A cursor with a match goes on behind it if it was accepted but has no tokens. -/
theorem matchesToToken_of_match (h : cursor.nextMatch? = some found) :
    cursor.matchesToToken = found ::
      if found.built = some [] then (cursor.advance found.piece).matchesToToken else [] := by
  rw [matchesToToken]
  split
  · rename_i hn
    rw [h] at hn
    cases hn
  · rename_i hs
    rw [h] at hs
    cases hs
    rfl

/-- A match answers for the next tokens, and the cursor moves behind its piece. -/
theorem next_of_match (h : cursor.nextMatch? = some found) :
    cursor.next = (found.answer, cursor.advance found.piece) := by
  obtain ⟨c, rest, hr⟩ := exists_rest (not_isFinished_of_match h)
  obtain ⟨⟨piece, rule⟩, hw, rfl⟩ := Option.map_eq_some_iff.mp h
  rw [hr] at hw
  rw [next, hr]
  simp only [hw, Match.answer]
  cases rule.build (String.ofList piece) <;> rfl

/-- Without a match the next tokens fail at the character there, if there is text left. -/
theorem next_of_unrecognized (hu : ¬ cursor.isFinished = true) (h : cursor.nextMatch? = none) :
    ∃ c, cursor.text[cursor.position]? = some c ∧
      cursor.next =
        (.error (.diagnostic (.unrecognized cursor.position (String.singleton c))), cursor) := by
  obtain ⟨c, rest, hr⟩ := exists_rest hu
  have hw := Option.map_eq_none_iff.mp h
  rw [hr] at hw
  refine ⟨c, ?_, ?_⟩
  · rw [← List.head?_drop]
    exact congrArg List.head? hr
  · rw [next, hr]
    simp only [hw]

/-- In any case they fail, and the cursor stays. -/
theorem next_of_no_match (h : cursor.nextMatch? = none) :
    ∃ failure, cursor.next = (.error failure, cursor) := by
  by_cases hf : cursor.isFinished = true
  · exact ⟨_, next_of_finished hf⟩
  · obtain ⟨c, -, hn⟩ := next_of_unrecognized hf h
    exact ⟨_, hn⟩

/-- If there is text left, a step of lexing fails, has a token, or calls for another
step. -/
theorem nextToken_of_unfinished (hu : ¬ cursor.isFinished = true) :
    cursor.nextToken =
      match cursor.next with
      | (.error failure, moved) => (.error failure, moved)
      | (.ok (token :: later), moved) => (.ok (some (token, later)), moved)
      | (.ok [], moved) => moved.nextToken := by
  rw [nextToken, if_neg hu]
  split
  all_goals
    rename_i h
    rw [h]

/-- At the end of the text there is no token. -/
theorem nextToken_of_finished (h : cursor.isFinished = true) :
    cursor.nextToken = (.ok none, cursor) := by
  rw [nextToken, if_pos h]

/-- How a search for a token goes: the matches that it makes, its answer, and where the
cursor stands afterwards. -/
inductive Search : Cursor → List Match → Except Failure (Option (Token × List Token)) →
    Cursor → Prop where
  /-- At the end of the text there is no token. -/
  | finished {cursor : Cursor} (h : cursor.isFinished = true) : Search cursor [] (.ok none) cursor
  /-- It fails at a character where no rule wins. -/
  | unrecognized {cursor : Cursor} {c : Char} (h : cursor.text[cursor.position]? = some c)
    (hm : cursor.nextMatch? = none) :
    Search cursor []
      (.error (.diagnostic (.unrecognized cursor.position (String.singleton c)))) cursor
  /-- It fails behind a piece that is rejected. -/
  | rejected {cursor : Cursor} {found : Match} (hm : cursor.nextMatch? = some found)
    (hb : found.built = none) :
    Search cursor [found] (.error (.badNumeral (String.ofList found.piece)))
      (cursor.advance found.piece)
  /-- It stops behind the first match with a token. -/
  | token {cursor : Cursor} {found : Match} {token : Token} {later : List Token}
    (hm : cursor.nextMatch? = some found) (hb : found.built = some (token :: later)) :
    Search cursor [found] (.ok (some (token, later))) (cursor.advance found.piece)
  /-- It goes on behind a match without tokens. -/
  | silent {cursor moved : Cursor} {found : Match} {chain : List Match}
    {answer : Except Failure (Option (Token × List Token))}
    (hm : cursor.nextMatch? = some found) (hb : found.built = some [])
    (rest : Search (cursor.advance found.piece) chain answer moved) :
    Search cursor (found :: chain) answer moved

/-- This is what a cursor does when it is asked for a token. -/
theorem search_nextToken (cursor : Cursor) :
    Search cursor cursor.matchesToToken cursor.nextToken.1 cursor.nextToken.2 := by
  induction cursor using matchesToToken.induct with
  | case1 cursor hm =>
    rw [matchesToToken_of_none hm]
    by_cases hf : cursor.isFinished = true
    · rw [nextToken_of_finished hf]
      exact .finished hf
    · obtain ⟨c, hc, hn⟩ := next_of_unrecognized hf hm
      rw [nextToken_of_unfinished hf, hn]
      exact .unrecognized hc hm
  | case2 cursor found hm ih =>
    rw [matchesToToken_of_match hm, nextToken_of_unfinished (not_isFinished_of_match hm),
      next_of_match hm, Match.answer]
    match hb : found.built with
    | none => exact .rejected hm hb
    | some [] => exact .silent hm hb ih
    | some (first :: later) =>
      rw [if_neg (by simp)]
      exact .token hm hb

/-- The tokens in the answer to a search. -/
def tokensFound : Except Failure (Option (Token × List Token)) → List Token
  | .ok (some (token, later)) => token :: later
  | _ => []

namespace Search

variable {later : Cursor} {chain : List Match}
  {answer : Except Failure (Option (Token × List Token))}

/-- A search passes the matches that it makes. -/
theorem passes (h : Search cursor chain answer later) : cursor.Passes chain later := by
  induction h with
  | finished hf => exact .refl _
  | unrecognized hc hm => exact .refl _
  | rejected hm hb => exact passes_of_match hm
  | token hm hb => exact passes_of_match hm
  | silent hm hb rest ih => exact (passes_of_match hm).trans ih

/-- The tokens of its matches are those that it finds. -/
theorem tokens_eq (h : Search cursor chain answer later) :
    chain.flatMap Match.tokens = tokensFound answer := by
  induction h with
  | finished hf => rfl
  | unrecognized hc hm => rfl
  | rejected hm hb => rw [List.flatMap_singleton, Match.tokens, hb]; rfl
  | token hm hb => rw [List.flatMap_singleton, Match.tokens, hb]; rfl
  | silent hm hb rest ih => rw [List.flatMap_cons, Match.tokens, hb, ih]; rfl

/-- It goes on behind matches without tokens only. -/
theorem tokens_of_mem_dropLast (h : Search cursor chain answer later) :
    ∀ found ∈ chain.dropLast, found.tokens = [] := by
  induction h with
  | finished hf => exact List.forall_mem_nil _
  | unrecognized hc hm => exact List.forall_mem_nil _
  | rejected hm hb => exact List.forall_mem_nil _
  | token hm hb => exact List.forall_mem_nil _
  | @silent _ _ found chain _ hm hb rest ih =>
    cases chain with
    | nil => exact List.forall_mem_nil _
    | cons next others =>
      rw [List.dropLast_cons_cons]
      exact List.forall_mem_cons.mpr ⟨by rw [Match.tokens, hb]; rfl, ih⟩

/-- If no match has more than one token, it finds one at most. -/
theorem length_tokensFound_le (h : Search cursor chain answer later)
    (hone : ∀ found ∈ chain, found.tokens.length ≤ 1) : (tokensFound answer).length ≤ 1 := by
  induction h with
  | finished hf => exact Nat.zero_le 1
  | unrecognized hc hm => exact Nat.zero_le 1
  | rejected hm hb => exact Nat.zero_le 1
  | @token _ found _ _ hm hb =>
    have hl := hone found List.mem_cons_self
    rw [Match.tokens, hb] at hl
    exact hl
  | silent hm hb rest ih => exact ih (List.forall_mem_cons.mp hone).2

/-- It never asks for tokens where there is no text left. -/
theorem ne_endOfText (h : Search cursor chain answer later) : answer ≠ .error .endOfText := by
  induction h with
  | finished hf => exact fun he => nomatch he
  | unrecognized hc hm => exact fun he => nomatch he
  | rejected hm hb => exact fun he => nomatch he
  | token hm hb => exact fun he => nomatch he
  | silent hm hb rest ih => exact ih

/-- Without a token, and without a rejected match, it stops where lexing ends. -/
theorem exists_halts (h : Search cursor chain answer later) (ha : Accepted chain)
    (hn : tokensFound answer = []) :
    ∃ ending, Halts later.rules later.text later.position ending := by
  induction h with
  | finished hf => exact ⟨_, .finished (of_decide_eq_true hf)⟩
  | unrecognized hc hm => exact ⟨_, .unrecognized hc (nextMatch?_eq_none_iff.mp hm)⟩
  | rejected hm hb => exact absurd hb (ha _ List.mem_cons_self)
  | token hm hb => cases hn
  | silent hm hb rest ih => exact ih (List.forall_mem_cons.mp ha).2 hn

end Search

end Cursor

end PostfixArithmetic
