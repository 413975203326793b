import PostfixArithmetic.Lexer.Scan

/-!
# A lexer that moves through a text

A cursor holds a text, a table of rules and a position. Each operation answers
and says where the cursor stands afterwards; a failure may leave it moved. Seeking
may go anywhere, also beyond the end, where the text counts as finished.
-/

namespace PostfixArithmetic

/-- A position in a text that is lexed with a table of rules. -/
structure Cursor where
  /-- The whole text. -/
  text : List Char
  /-- The rules, in the order in which they are tried. -/
  rules : List Rule
  /-- The number of characters before the cursor. -/
  position : Nat

namespace Cursor

/-- The cursor at the start of a text. -/
def start (rules : List Rule) (text : String) : Cursor :=
  ⟨text.toList, rules, 0⟩

/-- The text that is still to be lexed. -/
def rest (cursor : Cursor) : List Char :=
  cursor.text.drop cursor.position

/-- Whether the text has been consumed. -/
def isFinished (cursor : Cursor) : Bool :=
  cursor.text.length ≤ cursor.position

/-- The cursor moved forward by the length of a piece. -/
def advance (cursor : Cursor) (piece : List Char) : Cursor :=
  { cursor with position := cursor.position + piece.length }

/-- The cursor at another position. -/
def seek (cursor : Cursor) (position : Nat) : Cursor :=
  { cursor with position := position }

/-- Try one pattern. On a match the cursor moves behind the matched text;
otherwise nothing moves. -/
def consume (cursor : Cursor) (pattern : Pattern) :
    Except Failure (Option String) × Cursor :=
  if cursor.isFinished then (.error .endOfText, cursor)
  else
    match pattern.piece? cursor.rest with
    | none => (.ok none, cursor)
    | some piece => (.ok (some (String.ofList piece)), cursor.advance piece)

/-- The tokens of the rule that wins at the cursor, which moves behind the matched
text even if the rule rejects it. With no rules at all the end of the text goes
unnoticed, and the character there is missing. -/
def next (cursor : Cursor) : Except Failure (List Token) × Cursor :=
  match cursor.rest with
  | [] => (.error (if cursor.rules.isEmpty then .pastEnd else .endOfText), cursor)
  | c :: rest =>
    match winner? cursor.rules (c :: rest) with
    | none =>
      (.error (.diagnostic (.unrecognized cursor.position (String.singleton c))), cursor)
    | some (piece, rule) =>
      match rule.build (String.ofList piece) with
      | none => (.error (.badNumeral (String.ofList piece)), cursor.advance piece)
      | some tokens => (.ok tokens, cursor.advance piece)

/-- All tokens from the cursor to the end of the text. -/
def tokens (cursor : Cursor) : Except Failure (List Token) × Cursor :=
  let scanned := scan cursor.rules cursor.position cursor.rest
  (scanned.outcome, cursor.seek scanned.position)

/-- The first token from the cursor on, with those that were built together with
it, or nothing at the end of the text. Matches without tokens are passed over. -/
def nextToken (cursor : Cursor) : Except Failure (Option (Token × List Token)) × Cursor :=
  if cursor.isFinished then (.ok none, cursor)
  else
    match _ : cursor.next with
    | (.error failure, moved) => (.error failure, moved)
    | (.ok (token :: later), moved) => (.ok (some (token, later)), moved)
    | (.ok [], moved) => moved.nextToken
termination_by cursor.text.length - cursor.position
decreasing_by
  rename_i unfinished step
  simp only [isFinished, decide_eq_true_eq, Nat.not_le] at unfinished
  unfold next at step
  split at step
  · cases step
  · split at step
    · cases step
    · rename_i found
      obtain ⟨nonempty, _⟩ := Pattern.nonempty_prefix_of_piece (mem_and_piece_of_winner found).2
      have positive := List.length_pos_iff.mpr nonempty
      split at step
      · cases step
      · cases step
        simp only [advance]
        omega

/-- A cursor is finished exactly when there is no text left. -/
theorem isFinished_iff (cursor : Cursor) : cursor.isFinished = true ↔ cursor.rest = [] := by
  simp [isFinished, rest]

end Cursor

end PostfixArithmetic
