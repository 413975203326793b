import PostfixArithmetic.Lexer.Scan
import PostfixArithmetic.Machine.Stack

/-!
# The calculator

A calculator evaluates one text at a time. A strict calculator asks for exactly
one value. It answers the way an interactive prompt would, and remembers the final
state of the last text that it evaluated without a mistake. What it does is written
down in the journal.
-/

namespace PostfixArithmetic

/-- The values that a text leaves on the stack, the top last. -/
def calculate (text : String) : Except Failure (List Float) := do
  let tokens ← tokenize text
  let final ← (State.initial tokens).evaluate
  return final.values

/-- The answer to a text. -/
inductive Response where
  /-- The values left on the stack, the top last. -/
  | ok (values : List Float)
  /-- The mistake in the text. -/
  | mistake (cause : Diagnostic)
deriving DecidableEq

/-- The line of text for a mistake of the given wording. -/
def mistakeText (message : String) : String :=
  " ? " ++ message

/-- A response as a line of text. -/
def Response.text : Response → String
  | ok values => " ".intercalate (values.map Written.number) ++ " ok"
  | mistake cause => mistakeText cause.message

/-- The response for a state that evaluation may end in. -/
def State.response (state : State) : Response :=
  .ok state.values

/-- A calculator between two texts. -/
structure Calculator where
  /-- Whether a text must leave exactly one value. -/
  strict : Bool
  /-- The final state of the last good text. -/
  lastState : Option State
deriving DecidableEq

namespace Calculator

/-- A calculator that has seen no text yet. -/
def new (strict : Bool) : Calculator :=
  ⟨strict, none⟩

/-- A state is handed on, unless the calculator is strict and the state has no
single result. -/
def check (calculator : Calculator) (state : State) : Except Failure State :=
  if calculator.strict then state.result.map fun _ => state else .ok state

/-- The final state for a text, with the journal. The calculator does not remember it. -/
def runLogged (calculator : Calculator) (text : String) : Logged State := do
  let tokens ← tokenizeLogged text
  let final ← (State.initial tokens).evaluateLogged
  calculator.check final

/-- The final state for a text. -/
def run (calculator : Calculator) (text : String) : Except Failure State :=
  (calculator.runLogged text).outcome

/-- The response to a text, with the journal, and the calculator afterwards. A mistake
of the text is the last thing to be written down; other failures are passed on. -/
def evalLogged (calculator : Calculator) (text : String) : Logged Response × Calculator :=
  let ran := calculator.runLogged text
  match ran.outcome with
  | .ok state =>
    (⟨.ok state.response, ran.records⟩, { calculator with lastState := some state })
  | .error (.diagnostic cause) =>
    (⟨.ok (.mistake cause), ran.records ++ [.mistake text cause]⟩, calculator)
  | .error failure => (⟨.error failure, ran.records⟩, calculator)

/-- The response to a text, and the calculator afterwards. -/
def eval (calculator : Calculator) (text : String) : Except Failure Response × Calculator :=
  let (response, later) := calculator.evalLogged text
  (response.outcome, later)

/-- The calculator with another setting of strictness. -/
def setStrict (calculator : Calculator) (strict : Bool) : Calculator :=
  { calculator with strict }

/-- A run splits a text into tokens, runs the machine on them and checks its final state. -/
theorem run_eq (calculator : Calculator) (text : String) :
    calculator.run text =
      tokenize text >>= fun tokens => (State.initial tokens).evaluate >>= calculator.check := by
  rw [run, runLogged, Logged.outcome_bind, outcome_tokenizeLogged]
  simp only [Logged.outcome_bind, State.outcome_evaluateLogged]
  rfl

/-- A run writes down the tokens of the text and what the machine reads of them. -/
theorem records_runLogged {text : String} {tokens : List Token}
    (h : tokenize text = .ok tokens) (calculator : Calculator) :
    (calculator.runLogged text).records =
      .lexed text tokens.length :: (State.initial tokens).history.records := by
  rw [runLogged, records_tokenizeLogged_bind h, ← State.records_evaluateLogged,
    Logged.records_bind_of_quiet]
  exact fun final => rfl

/-- A calculator that is not strict accepts every state. -/
theorem check_of_lenient {calculator : Calculator} (h : calculator.strict = false)
    (state : State) : calculator.check state = .ok state := by
  simp [check, h]

/-- A final state is the response and is remembered, and nothing more is written down. -/
theorem evalLogged_of_run_ok {calculator : Calculator} {text : String} {final : State}
    (h : calculator.run text = .ok final) :
    calculator.evalLogged text =
      (⟨.ok final.response, (calculator.runLogged text).records⟩,
        { calculator with lastState := some final }) := by
  rw [run] at h
  rw [evalLogged]
  simp only [h]

/-- A mistake is the response, changes nothing and is written down. -/
theorem evalLogged_of_run_mistake {calculator : Calculator} {text : String}
    {cause : Diagnostic} (h : calculator.run text = .error (.diagnostic cause)) :
    calculator.evalLogged text =
      (⟨.ok (.mistake cause), (calculator.runLogged text).records ++ [.mistake text cause]⟩,
        calculator) := by
  rw [run] at h
  rw [evalLogged]
  simp only [h]

/-- A final state is the answer and is remembered. -/
theorem eval_of_run_ok {calculator : Calculator} {text : String} {final : State}
    (h : calculator.run text = .ok final) :
    calculator.eval text =
      (.ok final.response, { calculator with lastState := some final }) := by
  rw [eval, evalLogged_of_run_ok h]

/-- A mistake is the answer and changes nothing. -/
theorem eval_of_run_mistake {calculator : Calculator} {text : String} {cause : Diagnostic}
    (h : calculator.run text = .error (.diagnostic cause)) :
    calculator.eval text = (.ok (.mistake cause), calculator) := by
  rw [eval, evalLogged_of_run_mistake h]

/-- Evaluation never changes strictness. -/
theorem strict_eval (calculator : Calculator) (text : String) :
    (calculator.eval text).2.strict = calculator.strict := by
  rw [eval, evalLogged]
  dsimp only
  split <;> rfl

end Calculator

end PostfixArithmetic
