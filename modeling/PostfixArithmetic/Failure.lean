import PostfixArithmetic.Text.Quoted

/-!
# What can go wrong

Diagnostics are the mistakes of an expression, which are reported to the user.
The other failures are misuses of a component: asking for more text than there
is, a token that is no numeral, an operation that does not exist. Every cause has
its wording in one place.
-/

namespace PostfixArithmetic

/-- The classes that diagnostics fall into, from the general to the special. -/
inductive Category where
  /-- Every diagnostic. -/
  | any
  /-- Text that cannot be split into tokens. -/
  | lexical
  /-- Tokens that cannot be evaluated. -/
  | evaluation
  /-- An operator without its operands. -/
  | underflow
  /-- A stack that does not hold exactly one value. -/
  | unbalanced
deriving DecidableEq

/-- A mistake in an expression. -/
inductive Diagnostic where
  /-- No rule matches the character at a position of the text. -/
  | unrecognized (position : Int) (character : String)
  /-- A step was asked for after the last token. -/
  | exhausted
  /-- An operator met fewer than two operands. -/
  | underflow (operator : String)
  /-- One value was asked for, and the stack held these, the top last. -/
  | unbalanced (stack : List Float)
deriving DecidableEq

namespace Diagnostic

/-- The text of a diagnostic. -/
def message : Diagnostic → String
  | unrecognized position character =>
    "unrecognized character " ++ Quoted.quote character ++ " at position " ++ toString position
  | exhausted => "no input left to evaluate"
  | underflow operator => "stack underflow for operator " ++ operator
  | unbalanced stack =>
    "expected exactly one value on the stack, found " ++ toString stack.length

/-- The classes of a diagnostic, from the general to the special. -/
def categories : Diagnostic → List Category
  | unrecognized _ _ => [.any, .lexical]
  | exhausted => [.any, .evaluation]
  | underflow _ => [.any, .evaluation, .underflow]
  | unbalanced _ => [.any, .evaluation, .unbalanced]

end Diagnostic

/-- The reason why an operation has no answer. -/
inductive Failure where
  /-- The expression is at fault. -/
  | diagnostic (cause : Diagnostic)
  /-- There is no text left to lex, or a feed of tokens has ended. -/
  | endOfText
  /-- A character beyond the end of the text was asked for. -/
  | pastEnd
  /-- A piece of text cannot be read as a number. -/
  | badNumeral (text : String)
  /-- There is no operation of this symbol. -/
  | unknownOperator (symbol : String)
deriving DecidableEq

namespace Failure

/-- The text of a failure. -/
def message : Failure → String
  | diagnostic cause => cause.message
  | endOfText => ""
  | pastEnd => "string index out of range"
  | badNumeral text => "could not convert string to float: " ++ Quoted.quote text
  | unknownOperator symbol => Quoted.quote symbol

end Failure

end PostfixArithmetic
