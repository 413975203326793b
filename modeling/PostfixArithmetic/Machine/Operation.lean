import PostfixArithmetic.Failure
import PostfixArithmetic.Number.BitPattern

/-!
# The four operations

Arithmetic on binary64 numbers. Division by zero is no failure: the plain quotient,
which a zero divisor does not have, is not asked for, and the answer is an infinity
or not-a-number as the standard of the format has it.
-/

namespace PostfixArithmetic

/-- The plain quotient, for a divisor that is not zero. -/
def quotient (a b : Float) (_ : (b == 0) = false) : Float :=
  a / b

/-- Real division, with an answer for zero divisors too. -/
def divide (a b : Float) : Float :=
  if nonzero : (b == 0) = false then quotient a b nonzero
  else if a == 0 || a.isNaN then BitPattern.toFloat false BitPattern.nan
  else
    BitPattern.copySign (BitPattern.toFloat false BitPattern.infinity) a *
      BitPattern.copySign 1 b

/-- An arithmetic operation. -/
inductive Operation where
  /-- Addition. -/
  | add
  /-- Subtraction. -/
  | sub
  /-- Multiplication. -/
  | mul
  /-- Division. -/
  | div
deriving DecidableEq

namespace Operation

/-- The symbol of an operation. -/
def symbol : Operation → String
  | add => "+"
  | sub => "-"
  | mul => "*"
  | div => "/"

/-- The operation of a symbol. -/
def ofSymbol? (symbol : String) : Option Operation :=
  if symbol = "+" then some add
  else if symbol = "-" then some sub
  else if symbol = "*" then some mul
  else if symbol = "/" then some div
  else none

/-- The operation of a symbol, or the failure that there is none. -/
def ofSymbol (symbol : String) : Except Failure Operation :=
  match ofSymbol? symbol with
  | some operation => .ok operation
  | none => .error (.unknownOperator symbol)

/-- The result of an operation on its left and right operand. -/
def apply : Operation → Float → Float → Float
  | add, a, b => a + b
  | sub, a, b => a - b
  | mul, a, b => a * b
  | div, a, b => divide a b

/-- There are no operations but those of the four symbols. -/
theorem ofSymbol?_eq_none_iff {symbol : String} :
    ofSymbol? symbol = none ↔ symbol ∉ ["+", "-", "*", "/"] := by
  simp only [List.mem_cons, List.not_mem_nil, or_false, not_or]
  constructor
  · intro unknown
    refine ⟨?_, ?_, ?_, ?_⟩ <;> rintro rfl <;> cases unknown
  · rintro ⟨plus, minus, times, slash⟩
    rw [ofSymbol?, if_neg plus, if_neg minus, if_neg times, if_neg slash]

/-- An operation is found by its symbol. -/
theorem ofSymbol?_symbol (operation : Operation) :
    ofSymbol? operation.symbol = some operation := by
  cases operation with
  | add => rfl
  | sub => rfl
  | mul => rfl
  | div => rfl

end Operation

end PostfixArithmetic
