import PostfixArithmetic.Calculator
import PostfixArithmetic.Proofs.Machine.Stepping

/-!
# The abstract machine behind the states

All that matters of a state is the tokens still to be read and the operands, the last of
them on top. Transitions of such configurations are given by rules that look at nothing
else. The machine on states takes exactly these transitions, one for each step, so that
what stands before the position, and the position itself, have no say in any run.
-/

namespace PostfixArithmetic

/-- A configuration of the abstract machine. -/
structure Configuration where
  /-- The tokens still to be read. -/
  remaining : List Token
  /-- The operands, the last of them on top. -/
  operands : List Token
deriving DecidableEq

namespace Configuration

/-- What one transition leads to: another configuration or a failure. -/
inductive Transition : Configuration → Except Failure Configuration → Prop where
  /-- Without a token there is no transition. -/
  | exhausted (operands : List Token) :
    Transition ⟨[], operands⟩ (.error (.diagnostic .exhausted))
  /-- An operand goes to the end of the operands. -/
  | push (value : Float) (rest operands : List Token) :
    Transition ⟨.operand value :: rest, operands⟩ (.ok ⟨rest, operands ++ [.operand value]⟩)
  /-- Any other token replaces the last two operands by the result of its operation. -/
  | apply {token : Token} {operation : Operation} (other : token.isOperand = false)
    (known : Operation.ofSymbol? token.text = some operation) (a b : Float)
    (rest below : List Token) :
    Transition ⟨token :: rest, below ++ [.operand a, .operand b]⟩
      (.ok ⟨rest, below ++ [.operand (operation.apply a b)]⟩)
  /-- There may be no operation for it. -/
  | unknown {token : Token} (other : token.isOperand = false)
    (unknown : Operation.ofSymbol? token.text = none) (a b : Float)
    (rest below : List Token) :
    Transition ⟨token :: rest, below ++ [.operand a, .operand b]⟩
      (.error (.unknownOperator token.text))
  /-- There may be fewer than two operands, whether or not there is an operation. -/
  | underflow {token : Token} (other : token.isOperand = false) {operands : List Token}
    (short : operands.length < 2) (rest : List Token) :
    Transition ⟨token :: rest, operands⟩ (.error (.diagnostic (.underflow token.text)))

/-- A run through configurations, up to the end of the input or to a failure. -/
inductive Run : Configuration → List Configuration → Option Failure → Prop where
  /-- All tokens have been read. -/
  | done (operands : List Token) : Run ⟨[], operands⟩ [⟨[], operands⟩] none
  /-- There is a token, and the transition fails. -/
  | failed {token : Token} {rest operands : List Token} {failure : Failure}
    (h : Transition ⟨token :: rest, operands⟩ (.error failure)) :
    Run ⟨token :: rest, operands⟩ [⟨token :: rest, operands⟩] (some failure)
  /-- The run goes on from the next configuration. -/
  | step {current next : Configuration} {later : List Configuration} {ending : Option Failure}
    (h : Transition current (.ok next)) (rest : Run next later ending) :
    Run current (current :: later) ending

end Configuration

namespace State

open PostfixArithmetic.Configuration

/-- The configuration that a state stands for. -/
def configuration (state : State) : Configuration :=
  ⟨state.input, state.operands⟩

/-- States of the same configuration have the same values. -/
theorem values_of_configuration {a b : State} (h : a.configuration = b.configuration) :
    a.values = b.values := by
  have ho : a.values.map Token.operand = b.values.map Token.operand :=
    congrArg Configuration.operands h
  exact List.map_injective_iff.mpr (fun x y hxy => Token.operand.inj hxy) ho

/-- They have the same stack. -/
theorem stack_of_configuration {a b : State} (h : a.configuration = b.configuration) :
    a.stack = b.stack :=
  List.reverse_inj.mp (values_of_configuration h)

/-- There are as many operands as there are values on the stack. -/
theorem length_operands (state : State) : state.operands.length = state.stack.length := by
  rw [operands, values, List.length_map, List.length_reverse]

/-- Two operands at the end are the two on top of the stack. -/
theorem operands_eq_append_iff {state : State} {a b : Float} {below : List Token} :
    state.operands = below ++ [.operand a, .operand b] ↔
      ∃ under, state.stack = b :: a :: under ∧ below = under.reverse.map .operand := by
  constructor
  · intro h
    have hl := congrArg List.length h
    rw [length_operands, List.length_append] at hl
    match hs : state.stack with
    | [] => rw [hs] at hl; cases hl
    | [_] => rw [hs] at hl; simp at hl
    | right :: left :: under =>
      rw [operands, values, hs, List.reverse_cons, List.reverse_cons, List.append_assoc,
        List.map_append] at h
      obtain ⟨hb, hv⟩ := List.append_inj' h rfl
      cases hv
      exact ⟨under, rfl, hb.symm⟩
  · rintro ⟨under, hs, rfl⟩
    rw [operands, values, hs, List.reverse_cons, List.reverse_cons, List.append_assoc,
      List.map_append]
    rfl

/-- A configuration over a stack, whose top comes first. -/
def onStack (remaining : List Token) (stack : List Float) : Configuration :=
  ⟨remaining, stack.reverse.map .operand⟩

/-- A step reduces the stack by the first token of the input. -/
theorem map_step_of_input_cons {state : State} {token : Token} {rest : List Token}
    (h : state.input = token :: rest) :
    state.step.map configuration = (reduce state.stack token).map (onStack rest) := by
  rw [step_of_input_cons h]
  cases reduce state.stack token with
  | error failure => rfl
  | ok stack =>
    have hi := input_advance h stack
    exact congrArg (fun input => Except.ok (onStack input stack)) hi

/-- A value on top of the stack is the last operand. -/
theorem onStack_cons (remaining : List Token) (value : Float) (stack : List Float) :
    onStack remaining (value :: stack) =
      ⟨remaining, stack.reverse.map .operand ++ [.operand value]⟩ := by
  rw [onStack, List.reverse_cons, List.map_append]
  rfl

/-- What a step does to a configuration is a transition. -/
theorem transition_step (state : State) :
    Transition state.configuration (state.step.map configuration) := by
  cases hi : state.input with
  | nil =>
    rw [step_of_finished (isFinished_of_input_nil hi), configuration, hi]
    exact .exhausted state.operands
  | cons token rest =>
    rw [map_step_of_input_cons hi, configuration, hi]
    cases ht : token.isOperand with
    | true =>
      cases token with
      | operand value =>
        rw [reduce, Except.map, onStack_cons]
        exact .push value rest state.operands
      | operator symbol => cases ht
      | other kind text => cases ht
    | false =>
      rw [reduce_of_not_operand ht]
      by_cases hl : state.stack.length < 2
      · rw [operate_of_short hl]
        exact .underflow ht (state.length_operands.trans_lt hl) rest
      · match hs : state.stack with
        | [] => simp [hs] at hl
        | [_] => simp [hs] at hl
        | right :: left :: below =>
          rw [operands_eq_append_iff.mpr ⟨below, hs, rfl⟩]
          cases ho : Operation.ofSymbol? token.text with
          | none =>
            rw [operate_of_unknown (by simp) ho]
            exact .unknown ht ho left right rest _
          | some operation =>
            rw [operate_of_known ho, Except.map, onStack_cons]
            exact .apply ht ho left right rest _

/-- Each step of the machine is the transition of its configuration, and there is no
other. -/
theorem transition_iff (state : State) (outcome : Except Failure Configuration) :
    Transition state.configuration outcome ↔ state.step.map configuration = outcome := by
  constructor
  · intro h
    generalize hc : state.configuration = current at h
    cases h with
    | exhausted operands =>
      obtain ⟨hi, -⟩ := Configuration.mk.inj hc
      rw [step_of_finished (isFinished_of_input_nil hi)]
      rfl
    | push value rest operands =>
      obtain ⟨hi, rfl⟩ := Configuration.mk.inj hc
      rw [map_step_of_input_cons hi, reduce, Except.map, onStack_cons]
      rfl
    | apply other known a b rest below =>
      obtain ⟨hi, ho⟩ := Configuration.mk.inj hc
      obtain ⟨under, hs, rfl⟩ := operands_eq_append_iff.mp ho
      rw [map_step_of_input_cons hi, reduce_of_not_operand other, hs, operate_of_known known,
        Except.map, onStack_cons]
    | unknown other unknown a b rest below =>
      obtain ⟨hi, ho⟩ := Configuration.mk.inj hc
      obtain ⟨under, hs, rfl⟩ := operands_eq_append_iff.mp ho
      have hl : 2 ≤ state.stack.length := by simp [hs]
      rw [map_step_of_input_cons hi, reduce_of_not_operand other, operate_of_unknown hl unknown]
      rfl
    | underflow other short rest =>
      obtain ⟨hi, ho⟩ := Configuration.mk.inj hc
      have hl : state.stack.length < 2 := by rw [← length_operands, ho]; exact short
      rw [map_step_of_input_cons hi, reduce_of_not_operand other, operate_of_short hl]
      rfl
  · rintro rfl
    exact state.transition_step

/-- A machine with input has a configuration that starts with the first token. -/
theorem configuration_of_input_cons {state : State} {token : Token} {rest : List Token}
    (h : state.input = token :: rest) :
    state.configuration = ⟨token :: rest, state.operands⟩ := by
  rw [configuration, h]

/-- A step to a configuration is a step to a state of it. -/
theorem exists_step_of_map_ok {state : State} {next : Configuration}
    (h : state.step.map configuration = .ok next) :
    ∃ later, state.step = .ok later ∧ later.configuration = next := by
  cases hs : state.step with
  | error failure =>
    rw [hs] at h
    cases h
  | ok later =>
    rw [hs] at h
    exact ⟨later, rfl, Except.ok.inj h⟩

/-- A failure on configurations is one on states. -/
theorem step_of_map_error {state : State} {failure : Failure}
    (h : state.step.map configuration = .error failure) : state.step = .error failure := by
  cases hs : state.step with
  | error cause =>
    rw [hs] at h
    cases h
    rfl
  | ok later =>
    rw [hs] at h
    cases h

/-- The configurations of a history are a run, which ends as the history does. -/
theorem run_history (state : State) :
    Run state.configuration (state.history.states.map configuration) state.history.failure := by
  induction hi : state.input generalizing state with
  | nil =>
    rw [history_of_finished (isFinished_of_input_nil hi), List.map_singleton, configuration, hi]
    exact .done state.operands
  | cons token rest ih =>
    have hu := not_isFinished_of_input_cons hi
    have ht := state.transition_step
    cases hs : state.step with
    | error failure =>
      rw [hs, configuration_of_input_cons hi] at ht
      rw [history_of_failed hu hs, List.map_singleton, configuration_of_input_cons hi]
      exact .failed ht
    | ok later =>
      rw [hs] at ht
      rw [history_of_step hu hs, List.map_cons]
      exact .step ht (ih later (input_of_step hi hs))

/-- A history is the only run from the configuration of its start. -/
theorem run_iff (state : State) (run : List Configuration) (ending : Option Failure) :
    Run state.configuration run ending ↔
      run = state.history.states.map configuration ∧ ending = state.history.failure := by
  constructor
  · intro h
    generalize hc : state.configuration = current at h
    induction h generalizing state with
    | done operands =>
      obtain ⟨hi, -⟩ := Configuration.mk.inj hc
      rw [history_of_finished (isFinished_of_input_nil hi), List.map_singleton, hc]
      exact ⟨rfl, rfl⟩
    | failed h =>
      obtain ⟨hi, -⟩ := Configuration.mk.inj hc
      rw [← hc, transition_iff] at h
      have hs := step_of_map_error h
      rw [history_of_failed (not_isFinished_of_input_cons hi) hs, List.map_singleton, hc]
      exact ⟨rfl, rfl⟩
    | step h rest ih =>
      rw [← hc, transition_iff] at h
      obtain ⟨later, hs, hnext⟩ := exists_step_of_map_ok h
      obtain ⟨hl, he⟩ := ih later hnext
      have hu : ¬ state.isFinished = true := by
        intro hf
        rw [step_of_finished hf] at hs
        cases hs
      rw [history_of_step hu hs, List.map_cons, hc]
      exact ⟨congrArg _ hl, he⟩
  · rintro ⟨rfl, rfl⟩
    exact state.run_history

/-- A run ends with all tokens read, over the stack that its input reduces to. -/
theorem map_configuration_evaluate (state : State) :
    state.evaluate.map configuration =
      (reduceAll state.stack state.input).map (onStack []) := by
  rw [evaluate_eq_reduceAll]
  cases reduceAll state.stack state.input with
  | error failure => rfl
  | ok stack =>
    have hi : (State.mk state.tokens (max state.position state.tokens.size) stack).input = [] :=
      List.drop_eq_nil_of_le (Nat.le_max_right _ _)
    exact congrArg (fun input => Except.ok (onStack input stack)) hi

/-- Runs from one configuration end in one configuration, or with the same failure. -/
theorem evaluate_of_configuration {a b : State} (h : a.configuration = b.configuration) :
    a.evaluate.map configuration = b.evaluate.map configuration := by
  have hi : a.input = b.input := congrArg Configuration.remaining h
  rw [map_configuration_evaluate, map_configuration_evaluate, stack_of_configuration h, hi]

/-- Whatever is read off the stacks that they leave is the same too. -/
theorem map_evaluate_of_configuration {a b : State} (h : a.configuration = b.configuration)
    {β : Type} {read : State → β} (hr : ∀ s t : State, s.stack = t.stack → read s = read t) :
    a.evaluate.map read = b.evaluate.map read := by
  have he := evaluate_of_configuration h
  cases ha : a.evaluate with
  | error failure =>
    cases hb : b.evaluate with
    | error other =>
      rw [ha, hb] at he
      cases he
      rfl
    | ok final =>
      rw [ha, hb] at he
      cases he
  | ok final =>
    cases hb : b.evaluate with
    | error failure =>
      rw [ha, hb] at he
      cases he
    | ok other =>
      rw [ha, hb] at he
      exact congrArg Except.ok (hr final other (stack_of_configuration (Except.ok.inj he)))

/-- States of the same stack have the same values. -/
theorem values_of_stack {a b : State} (h : a.stack = b.stack) : a.values = b.values := by
  rw [values, values, h]

/-- They have the same result. -/
theorem result_of_stack {a b : State} (h : a.stack = b.stack) : a.result = b.result := by
  rw [result, result, values_of_stack h, h]

/-- They are shown alike. -/
theorem text_response_of_stack {a b : State} (h : a.stack = b.stack) :
    a.response.text = b.response.text := by
  rw [response, response, values_of_stack h]

/-- The machine on states carries out the abstract machine. Each step is the transition
of the configuration, with the same failure if there is one, and each history is the run
from there. So states of the same configuration, whatever tokens they have read and
wherever they stand, go through the same configurations and come to the same failure or
to the same operands, and nothing that is read off the stack tells them apart. -/
theorem simulates_configurations :
    (∀ (state : State) outcome,
      Transition state.configuration outcome ↔ state.step.map configuration = outcome) ∧
    (∀ (state : State) run ending, Run state.configuration run ending ↔
      run = state.history.states.map configuration ∧ ending = state.history.failure) ∧
    ∀ a b : State, a.configuration = b.configuration →
      (a.values = b.values ∧ a.result = b.result ∧ a.response.text = b.response.text) ∧
      a.history.states.map configuration = b.history.states.map configuration ∧
      a.history.failure = b.history.failure ∧
      a.evaluate.map configuration = b.evaluate.map configuration ∧
      a.evaluate.map values = b.evaluate.map values ∧
      a.evaluate.map result = b.evaluate.map result ∧
      a.evaluate.map (·.response.text) = b.evaluate.map (·.response.text) := by
  refine ⟨transition_iff, run_iff, fun a b h => ?_⟩
  have hs := stack_of_configuration h
  have hrun : Run b.configuration (a.history.states.map configuration) a.history.failure :=
    h ▸ a.run_history
  obtain ⟨hstates, hfailure⟩ := (run_iff b _ _).mp hrun
  exact ⟨⟨values_of_stack hs, result_of_stack hs, text_response_of_stack hs⟩, hstates, hfailure,
    evaluate_of_configuration h,
    map_evaluate_of_configuration h fun s t => values_of_stack,
    map_evaluate_of_configuration h fun s t => result_of_stack,
    map_evaluate_of_configuration h fun s t => text_response_of_stack⟩

/-- A machine that has read an operator, and one that has read nothing, go on alike over
the same operand. -/
theorem simulates_after_operator :
    (State.mk #[.operator "+", .operand 3, .operator "*"] 1 [2]).evaluate.map values =
      (State.mk #[.operand 3, .operator "*"] 0 [2]).evaluate.map values := by
  have h : (State.mk #[.operator "+", .operand 3, .operator "*"] 1 [2]).configuration =
      (State.mk #[.operand 3, .operator "*"] 0 [2]).configuration := rfl
  exact (simulates_configurations.2.2 _ _ h).2.2.2.2.1

end State

end PostfixArithmetic
