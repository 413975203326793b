import PostfixArithmetic.Number.Numeral
import PostfixArithmetic.Number.Written

/-!
# Tokens

The units of a postfix expression: operands, which carry a number, and operators,
which carry their symbol. A token of any other kind may be handed to the machine
too, and is treated there as an operator.
-/

namespace PostfixArithmetic

/-- A unit of a postfix expression. -/
inductive Token where
  /-- A number to put on the stack. -/
  | operand (value : Float)
  /-- The symbol of an operation. -/
  | operator (symbol : String)
  /-- A token of a foreign kind. -/
  | other (kind text : String)
deriving DecidableEq

namespace Token

/-- The operand that a numeral denotes, or nothing if the text is no numeral. -/
def operand? (numeral : String) : Option Token :=
  (Numeral.read? numeral).map operand

/-- The name of the kind of a token. -/
def kind : Token → String
  | operand _ => "OPERAND"
  | operator _ => "OPERATOR"
  | other kind _ => kind

/-- The token of a named kind with a text as its value. -/
def ofKind (kind text : String) : Token :=
  if kind = "OPERATOR" then operator text else other kind text

/-- Whether a token is an operand. -/
def isOperand : Token → Bool
  | operand _ => true
  | _ => false

/-- Whether a token is an operator. -/
def isOperator : Token → Bool
  | operator _ => true
  | _ => false

/-- The value of a token as text: the written number or the symbol. -/
def text : Token → String
  | operand value => Written.number value
  | operator symbol => symbol
  | other _ text => text

/-- A token as a trace shows it. -/
def label (token : Token) : String :=
  token.kind ++ ":" ++ token.text

/-- Whether two tokens are equal when their numbers are compared as numbers, so
that the two zeros agree. -/
def agrees : Token → Token → Bool
  | operand a, operand b => a == b
  | a, b => a = b

end Token

end PostfixArithmetic
