import PostfixArithmetic.Token

/-!
# Lexical rules

A rule pairs a pattern with a builder of tokens. Patterns are literal texts, runs of
characters of one class, which take as many characters as they can, and whatever else
tells from the remaining text how much of it to take. Only a match that is not empty
counts. The standard table has a rule for each of the four operators, one for runs of
digits and one for runs of blanks.
-/

namespace PostfixArithmetic

/-- A way to look for a text at the start of the remaining text. What comes before
that has no say. -/
structure Matcher where
  /-- The text that is found at the start of the input. -/
  find? : List Char → Option (List Char)
  /-- It is not empty, and the input begins with it. -/
  nonempty_prefix : ∀ {input piece}, find? input = some piece → piece ≠ [] ∧ piece <+: input

/-- What a rule looks for at the start of the remaining text. -/
inductive Pattern where
  /-- Exactly these characters. -/
  | literal (characters : List Char)
  /-- All characters up to the first that is not a member, and at least so many. -/
  | run (members : Char → Bool) (least : Nat)
  /-- Whatever a matcher finds. -/
  | general (matcher : Matcher)

/-- The text that a pattern matches at the start of the input. An empty match is
no match. -/
def Pattern.piece? : Pattern → List Char → Option (List Char)
  | literal characters, input =>
    if characters ≠ [] ∧ characters.isPrefixOf input then some characters else none
  | run members least, input =>
    let taken := input.takeWhile members
    if taken ≠ [] ∧ least ≤ taken.length then some taken else none
  | general matcher, input => matcher.find? input

/-- A pattern, and the tokens that a matched text stands for. -/
structure Rule where
  /-- What the rule looks for. -/
  pattern : Pattern
  /-- The tokens of a matched text, or nothing if the text is rejected as a numeral. A
  builder fails in no other way. -/
  build : String → Option (List Token)

namespace Rule

/-- A rule that drops what it matches. -/
def skip (pattern : Pattern) : Rule :=
  ⟨pattern, fun _ => some []⟩

/-- A rule whose matches are operators. -/
def operator (pattern : Pattern) : Rule :=
  ⟨pattern, fun text => some [.operator text]⟩

/-- A rule whose matches are operands. -/
def operand (pattern : Pattern) : Rule :=
  ⟨pattern, fun text => (Token.operand? text).map fun token => [token]⟩

/-- The rule for addition. -/
def plus : Rule := operator (.literal ['+'])

/-- The rule for subtraction. -/
def minus : Rule := operator (.literal ['-'])

/-- The rule for multiplication. -/
def times : Rule := operator (.literal ['*'])

/-- The rule for division. -/
def slash : Rule := operator (.literal ['/'])

/-- The rule for numerals: runs of digits. -/
def digits : Rule := operand (.run isAsciiDigit 1)

/-- The rule for the space between tokens: runs of blanks. -/
def space : Rule := skip (.run isBlank 1)

/-- The table of all standard rules. -/
def standard : List Rule :=
  [plus, minus, times, slash, digits, space]

end Rule

/-- A matched text is a non-empty beginning of the input. -/
theorem Pattern.nonempty_prefix_of_piece {pattern : Pattern} {input piece : List Char}
    (h : pattern.piece? input = some piece) : piece ≠ [] ∧ piece <+: input := by
  cases pattern with
  | literal characters =>
    simp only [piece?] at h
    split at h
    · rename_i found
      cases h
      exact ⟨found.1, List.isPrefixOf_iff_prefix.mp found.2⟩
    · cases h
  | run members least =>
    simp only [piece?] at h
    split at h
    · rename_i found
      cases h
      exact ⟨found.1, List.takeWhile_prefix members⟩
    · cases h
  | general matcher => exact matcher.nonempty_prefix h

end PostfixArithmetic
