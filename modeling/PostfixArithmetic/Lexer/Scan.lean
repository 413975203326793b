import PostfixArithmetic.Journal
import PostfixArithmetic.Lexer.Rule

/-!
# Splitting a text into tokens

The text is read from left to right. At each position the first rule of the table
with a match wins, and its tokens come next. Scanning ends at the end of the text,
at a character that no rule matches, or behind a piece that its rule rejects.
-/

namespace PostfixArithmetic

/-- The first rule of a table that matches at the start of the input, with the
text that it matches. -/
def winner? (rules : List Rule) (input : List Char) : Option (List Char × Rule) :=
  rules.findSome? fun rule => (rule.pattern.piece? input).map fun piece => (piece, rule)

/-- The winner matches a non-empty beginning of the input and is in the table. -/
theorem mem_and_piece_of_winner {rules : List Rule} {input piece : List Char} {rule : Rule}
    (h : winner? rules input = some (piece, rule)) :
    rule ∈ rules ∧ rule.pattern.piece? input = some piece := by
  obtain ⟨candidate, listed, found⟩ := List.exists_of_findSome?_eq_some h
  obtain ⟨matched, hit, same⟩ := Option.map_eq_some_iff.mp found
  cases same
  exact ⟨listed, hit⟩

/-- There is no winner exactly when no rule of the table matches. -/
theorem winner?_eq_none_iff {rules : List Rule} {input : List Char} :
    winner? rules input = none ↔ ∀ rule ∈ rules, rule.pattern.piece? input = none := by
  simp [winner?, List.findSome?_eq_none_iff]

/-- What is left behind a winner's piece is shorter than the input. -/
theorem length_drop_winner_lt {rules : List Rule} {input piece : List Char} {rule : Rule}
    (h : winner? rules input = some (piece, rule)) :
    (input.drop piece.length).length < input.length := by
  obtain ⟨nonempty, beginning⟩ := Pattern.nonempty_prefix_of_piece (mem_and_piece_of_winner h).2
  have positive : 0 < piece.length := List.length_pos_iff.mpr nonempty
  have bounded : piece.length ≤ input.length := beginning.length_le
  rw [List.length_drop]
  omega

/-- The answer of a scan and where it stopped. -/
structure Scan where
  /-- All tokens, or the reason why there are none. -/
  outcome : Except Failure (List Token)
  /-- The position where scanning ended. -/
  position : Nat

/-- A scan with tokens put in front of its own. -/
def Scan.prepend (tokens : List Token) (later : Scan) : Scan :=
  { later with outcome := later.outcome.map (tokens ++ ·) }

/-- Scan the input, which starts at the given position of the text. -/
def scan (rules : List Rule) (position : Nat) (input : List Char) : Scan :=
  match input with
  | [] => ⟨.ok [], position⟩
  | c :: rest =>
    match _ : winner? rules (c :: rest) with
    | none => ⟨.error (.diagnostic (.unrecognized position (String.singleton c))), position⟩
    | some (piece, rule) =>
      match rule.build (String.ofList piece) with
      | none => ⟨.error (.badNumeral (String.ofList piece)), position + piece.length⟩
      | some tokens =>
        (scan rules (position + piece.length) ((c :: rest).drop piece.length)).prepend tokens
termination_by input.length
decreasing_by
  rename_i found
  exact length_drop_winner_lt found

/-- The tokens of a text under a table of rules, or the first failure. -/
def tokenizeWith (rules : List Rule) (text : String) : Except Failure (List Token) :=
  (scan rules 0 text.toList).outcome

/-- The tokens of a text under the standard table. -/
def tokenize (text : String) : Except Failure (List Token) :=
  tokenizeWith Rule.standard text

/-- Split a text into tokens, and then write down how many there are. -/
def tokenizeLogged (text : String) : Logged (List Token) := do
  let tokens ← tokenize text
  Logged.write (.lexed text tokens.length)
  return tokens

/-- A text is split alike whether it is written down or not. -/
theorem outcome_tokenizeLogged (text : String) :
    (tokenizeLogged text).outcome = tokenize text := by
  rw [tokenizeLogged, Logged.outcome_bind]
  exact bind_pure (tokenize text)

/-- What is written down begins with the tokens of the text. -/
theorem records_tokenizeLogged_bind {α : Type} {text : String} {tokens : List Token}
    (h : tokenize text = .ok tokens) (next : List Token → Logged α) :
    (tokenizeLogged text >>= next).records =
      .lexed text tokens.length :: (next tokens).records := by
  have outcome := (outcome_tokenizeLogged text).trans h
  rw [Logged.records_bind_of_ok outcome, tokenizeLogged, h]
  rfl

/-- Of a text that cannot be split nothing is written down. -/
theorem records_tokenizeLogged_bind_of_error {α : Type} {text : String} {failure : Failure}
    (h : tokenize text = .error failure) (next : List Token → Logged α) :
    (tokenizeLogged text >>= next).records = [] := by
  have outcome := (outcome_tokenizeLogged text).trans h
  rw [Logged.records_bind_of_error outcome, tokenizeLogged, h]
  rfl

/-- An input without a winner is rejected at its first character. -/
theorem scan_of_no_winner {rules : List Rule} {c : Char} {rest : List Char}
    (h : winner? rules (c :: rest) = none) (position : Nat) :
    scan rules position (c :: rest) =
      ⟨.error (.diagnostic (.unrecognized position (String.singleton c))), position⟩ := by
  rw [scan]
  split
  · rfl
  · rename_i found
    rw [h] at found
    cases found

/-- A winner whose piece is rejected ends the scan behind the piece. -/
theorem scan_of_rejected {rules : List Rule} {c : Char} {rest piece : List Char} {rule : Rule}
    (h : winner? rules (c :: rest) = some (piece, rule))
    (rejected : rule.build (String.ofList piece) = none) (position : Nat) :
    scan rules position (c :: rest) =
      ⟨.error (.badNumeral (String.ofList piece)), position + piece.length⟩ := by
  rw [scan]
  split
  · rename_i found
    rw [h] at found
    cases found
  · rename_i found
    rw [h] at found
    cases found
    simp only [rejected]

/-- A winner's tokens come before those of the rest. -/
theorem scan_of_winner {rules : List Rule} {c : Char} {rest piece : List Char} {rule : Rule}
    {tokens : List Token} (h : winner? rules (c :: rest) = some (piece, rule))
    (built : rule.build (String.ofList piece) = some tokens) (position : Nat) :
    scan rules position (c :: rest) =
      (scan rules (position + piece.length)
        ((c :: rest).drop piece.length)).prepend tokens := by
  rw [scan]
  split
  · rename_i found
    rw [h] at found
    cases found
  · rename_i found
    rw [h] at found
    cases found
    simp only [built]

end PostfixArithmetic
