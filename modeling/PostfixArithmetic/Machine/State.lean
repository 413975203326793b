import PostfixArithmetic.Machine.Operation
import PostfixArithmetic.Token

/-!
# The machine and its step

A state of the machine is the whole sequence of tokens, how many of them have been
read, and the stack of operands. A step reads one token: an operand goes onto the
stack, and an operator replaces the two topmost operands by its result. States
are values, so that every state of a run may be kept.
-/

namespace PostfixArithmetic

/-- A snapshot of the machine. -/
structure State where
  /-- All tokens of the expression. -/
  tokens : Array Token
  /-- The number of tokens that have been read; it may exceed their number. -/
  position : Nat
  /-- The operands, the top first. -/
  stack : List Float
deriving DecidableEq

namespace State

/-- The machine before the first of the tokens, with an empty stack. -/
def initial (tokens : List Token) : State :=
  ⟨tokens.toArray, 0, []⟩

/-- Whether every token has been read. -/
def isFinished (state : State) : Bool :=
  state.tokens.size ≤ state.position

/-- The tokens still to be read. -/
def input (state : State) : List Token :=
  state.tokens.toList.drop state.position

/-- The state behind the next token, with a new stack. -/
def advance (state : State) (stack : List Float) : State :=
  ⟨state.tokens, state.position + 1, stack⟩

/-- The stack after an operator: its right operand is the top and its left operand
the one below. -/
def operate (symbol : String) : List Float → Except Failure (List Float)
  | right :: left :: below => do
    let operation ← Operation.ofSymbol symbol
    return operation.apply left right :: below
  | _ => .error (.diagnostic (.underflow symbol))

/-- The stack after a token. Whatever is not an operand acts as an operator. -/
def reduce (stack : List Float) : Token → Except Failure (List Float)
  | .operand value => .ok (value :: stack)
  | .operator symbol => operate symbol stack
  | .other _ text => operate text stack

/-- Read one token. -/
def step (state : State) : Except Failure State :=
  match state.tokens[state.position]? with
  | none => .error (.diagnostic .exhausted)
  | some token => (reduce state.stack token).map state.advance

/-- Whether two states are equal when their numbers are compared as numbers. -/
def agrees (a b : State) : Bool :=
  a.position = b.position && a.tokens.size = b.tokens.size &&
    (a.tokens.toList.zip b.tokens.toList).all (fun pair => pair.1.agrees pair.2) &&
    a.stack == b.stack

/-- A state is finished exactly when no token is left. -/
theorem isFinished_iff (state : State) : state.isFinished = true ↔ state.input = [] := by
  simp [isFinished, input]

/-- The token that a step reads is the first of those left. -/
theorem getElem?_position (state : State) :
    state.tokens[state.position]? = state.input.head? := by
  simp [input, List.head?_drop]

/-- A step moves to the next position. -/
theorem position_step {state later : State} (h : state.step = .ok later) :
    later.position = state.position + 1 ∧ later.tokens = state.tokens := by
  unfold step at h
  split at h
  · cases h
  · cases reduced : reduce state.stack _ with
    | error failure =>
      rw [reduced] at h
      cases h
    | ok stack =>
      rw [reduced] at h
      cases h
      exact ⟨rfl, rfl⟩

end State

end PostfixArithmetic
