import PostfixArithmetic.Calculator

/-!
# Traces

A trace shows a text, its tokens and every stack that the machine went through.
There is a trace only of a text that is evaluated without a mistake.
-/

namespace PostfixArithmetic

/-- A faithful record of an evaluation. -/
structure Trace where
  /-- The text that was evaluated. -/
  text : String
  /-- Its tokens. -/
  tokens : List Token
  /-- The states of the machine from the start to the end. -/
  states : List State
  /-- The last state. -/
  final : State
deriving DecidableEq

namespace Trace

/-- Values between brackets, the top last. -/
def stackLine (values : List Float) : String :=
  "[" ++ ", ".intercalate (values.map Written.number) ++ "]"

/-- The lines of a trace. -/
def lines (trace : Trace) : List String :=
  ["Input:", trace.text, "Tokens:", " ".intercalate (trace.tokens.map Token.label), "Stacks:"] ++
    trace.states.map fun state => stackLine state.values

end Trace

/-- Evaluate a text and keep the trace, with the journal. -/
def Calculator.trace (calculator : Calculator) (text : String) : Logged Trace := do
  let tokens ← tokenizeLogged text
  let start := State.initial tokens
  let states ← start.history.complete
  let final ← calculator.check (states.getLastD start)
  return ⟨text, tokens, states, final⟩

/-- A trace writes down what a run does. -/
theorem Calculator.records_trace (calculator : Calculator) (text : String) :
    (calculator.trace text).records = (calculator.runLogged text).records := by
  cases h : tokenize text with
  | error failure =>
    rw [trace, runLogged, records_tokenizeLogged_bind_of_error h,
      records_tokenizeLogged_bind_of_error h]
  | ok tokens =>
    rw [records_runLogged h, trace, records_tokenizeLogged_bind h, Logged.records_bind_of_quiet]
    · rfl
    · exact fun states => Logged.records_bind_of_quiet (Logged.quiet _) fun final => rfl

end PostfixArithmetic
