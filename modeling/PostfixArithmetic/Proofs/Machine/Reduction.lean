import PostfixArithmetic.Machine.Stack

/-!
# Runs as reductions of the input

A run reads its remaining tokens once, from left to right, and what it does to
the stack depends on nothing else. One reduction over a list of tokens describes
the end of a run, every state on the way and the failure that stops it; the token
sequence behind the machine and the position in it only travel along.
-/

namespace PostfixArithmetic.State

/-- The stack after several tokens, read from left to right. -/
def reduceAll (stack : List Float) (tokens : List Token) : Except Failure (List Float) :=
  tokens.foldlM reduce stack

/-- Without tokens the stack stays as it is. -/
@[simp]
theorem reduceAll_nil (stack : List Float) : reduceAll stack [] = .ok stack := rfl

/-- A failure at the first token is the failure of all. -/
theorem reduceAll_cons_of_error {stack : List Float} {token : Token} {failure : Failure}
    (h : reduce stack token = .error failure) (tokens : List Token) :
    reduceAll stack (token :: tokens) = .error failure := by
  rw [reduceAll, List.foldlM_cons, h]
  rfl

/-- Behind the first token the reduction goes on from the new stack. -/
theorem reduceAll_cons_of_ok {stack later : List Float} {token : Token}
    (h : reduce stack token = .ok later) (tokens : List Token) :
    reduceAll stack (token :: tokens) = reduceAll later tokens := by
  rw [reduceAll, List.foldlM_cons, h]
  rfl

/-- A failure of earlier tokens is the failure of all. -/
theorem reduceAll_append_of_error {stack : List Float} {earlier : List Token}
    {failure : Failure} (h : reduceAll stack earlier = .error failure) (tokens : List Token) :
    reduceAll stack (earlier ++ tokens) = .error failure := by
  rw [reduceAll] at h
  rw [reduceAll, List.foldlM_append, h]
  rfl

/-- Later tokens go on from the stack that earlier ones leave. -/
theorem reduceAll_append_of_ok {stack later : List Float} {earlier : List Token}
    (h : reduceAll stack earlier = .ok later) (tokens : List Token) :
    reduceAll stack (earlier ++ tokens) = reduceAll later tokens := by
  rw [reduceAll] at h
  rw [reduceAll, List.foldlM_append, h]
  rfl

/-- A token other than an operand acts as an operator with its text as symbol. -/
theorem reduce_of_not_operand {token : Token} (h : token.isOperand = false)
    (stack : List Float) : reduce stack token = operate token.text stack := by
  cases token with
  | operand value => cases h
  | operator symbol => rfl
  | other kind text => rfl

/-- With fewer than two operands every operator fails, known or not. -/
theorem operate_of_short {stack : List Float} (h : stack.length < 2) (symbol : String) :
    operate symbol stack = .error (.diagnostic (.underflow symbol)) := by
  match stack, h with
  | [], _ => rfl
  | [_], _ => rfl

/-- With two operands only a symbol without an operation fails. -/
theorem operate_of_unknown {stack : List Float} {symbol : String} (h : 2 ≤ stack.length)
    (unknown : Operation.ofSymbol? symbol = none) :
    operate symbol stack = .error (.unknownOperator symbol) := by
  match stack, h with
  | right :: left :: below, _ =>
    simp only [operate, Operation.ofSymbol, unknown]
    rfl

/-- An operation replaces the two topmost operands by its result. -/
theorem operate_of_known {symbol : String} {operation : Operation}
    (known : Operation.ofSymbol? symbol = some operation) (left right : Float)
    (below : List Float) :
    operate symbol (right :: left :: below) = .ok (operation.apply left right :: below) := by
  simp only [operate, Operation.ofSymbol, known]
  rfl

/-- A token that can be reduced is an operand, or it has an operation and two operands. -/
theorem reduce_eq_ok {stack later : List Float} {token : Token}
    (h : reduce stack token = .ok later) :
    (∃ value, token = .operand value ∧ later = value :: stack) ∨
      ∃ operation right left below, token.isOperand = false ∧
        Operation.ofSymbol? token.text = some operation ∧ stack = right :: left :: below ∧
          later = operation.apply left right :: below := by
  cases ht : token.isOperand with
  | true =>
    cases token with
    | operand value =>
      cases h
      exact Or.inl ⟨value, rfl, rfl⟩
    | operator symbol => cases ht
    | other kind text => cases ht
  | false =>
    rw [reduce_of_not_operand ht] at h
    match stack with
    | [] => cases h
    | [_] => cases h
    | right :: left :: below =>
      cases ho : Operation.ofSymbol? token.text with
      | none =>
        rw [operate_of_unknown (by simp) ho] at h
        cases h
      | some operation =>
        rw [operate_of_known ho] at h
        cases h
        exact Or.inr ⟨operation, right, left, below, rfl, rfl, rfl, rfl⟩

/-- A machine without input is finished. -/
theorem isFinished_of_input_nil {state : State} (h : state.input = []) :
    state.isFinished = true :=
  state.isFinished_iff.mpr h

/-- A machine with input is not finished. -/
theorem not_isFinished_of_input_cons {state : State} {token : Token} {rest : List Token}
    (h : state.input = token :: rest) : ¬ state.isFinished = true := by
  rw [isFinished_iff, h]
  exact List.cons_ne_nil _ _

/-- A step reduces the stack by the first token of the input. -/
theorem step_of_input_cons {state : State} {token : Token} {rest : List Token}
    (h : state.input = token :: rest) :
    state.step = (reduce state.stack token).map state.advance := by
  rw [step, getElem?_position, h]
  rfl

/-- Moving on drops the first token of the input. -/
theorem input_advance {state : State} {token : Token} {rest : List Token}
    (h : state.input = token :: rest) (stack : List Float) :
    (state.advance stack).input = rest := by
  have hd : state.input.drop 1 = rest := by rw [h]; rfl
  rw [input, List.drop_drop] at hd
  exact hd

/-- The input has as many tokens as there are positions left. -/
theorem length_input (state : State) :
    state.input.length = state.tokens.size - state.position := by
  rw [input, List.length_drop, Array.length_toList]

/-- The input of a machine that has not started is the whole sequence. -/
@[simp]
theorem input_initial (tokens : List Token) : (initial tokens).input = tokens := rfl

/-- A run ends behind the last token, on the stack that its input reduces to; a
start behind the end stays where it is. -/
theorem evaluate_eq_reduceAll (state : State) :
    state.evaluate = (reduceAll state.stack state.input).map
      fun stack => ⟨state.tokens, max state.position state.tokens.size, stack⟩ := by
  induction hi : state.input generalizing state with
  | nil =>
    have hl := state.length_input
    rw [hi, List.length_nil] at hl
    have hm : max state.position state.tokens.size = state.position := by omega
    rw [evaluate_of_finished (isFinished_of_input_nil hi), reduceAll_nil, hm]
    rfl
  | cons token rest ih =>
    have hu := not_isFinished_of_input_cons hi
    have hl := state.length_input
    rw [hi, List.length_cons] at hl
    have hs := step_of_input_cons hi
    cases hr : reduce state.stack token with
    | error failure =>
      rw [hr] at hs
      rw [evaluate_of_failed hu hs, reduceAll_cons_of_error hr]
      rfl
    | ok stack =>
      rw [hr] at hs
      have hm : max (state.position + 1) state.tokens.size =
          max state.position state.tokens.size := by omega
      rw [evaluate_of_step hu hs, ih _ (input_advance hi stack), reduceAll_cons_of_ok hr]
      simp only [advance, hm]

/-- From the start, a run leaves the stack that all tokens reduce to. -/
theorem evaluate_initial_of_ok {tokens : List Token} {stack : List Float}
    (h : reduceAll [] tokens = .ok stack) :
    (initial tokens).evaluate = .ok ⟨tokens.toArray, tokens.length, stack⟩ := by
  have hm : max (initial tokens).position (initial tokens).tokens.size = tokens.length :=
    Nat.zero_max _
  rw [evaluate_eq_reduceAll, input_initial, hm]
  change (reduceAll [] tokens).map _ = _
  rw [h]
  rfl

/-- From the start, a run fails as the reduction of all tokens does. -/
theorem evaluate_initial_of_error {tokens : List Token} {failure : Failure}
    (h : reduceAll [] tokens = .error failure) :
    (initial tokens).evaluate = .error failure := by
  rw [evaluate_eq_reduceAll, input_initial]
  change (reduceAll [] tokens).map _ = _
  rw [h]
  rfl

/-- A history fails exactly as the reduction of its input does. -/
theorem failure_history (state : State) :
    state.history.failure =
      match reduceAll state.stack state.input with
      | .error failure => some failure
      | .ok _ => none := by
  induction hi : state.input generalizing state with
  | nil =>
    rw [history_of_finished (isFinished_of_input_nil hi)]
    rfl
  | cons token rest ih =>
    have hu := not_isFinished_of_input_cons hi
    have hs := step_of_input_cons hi
    cases hr : reduce state.stack token with
    | error failure =>
      rw [hr] at hs
      rw [history_of_failed hu hs, reduceAll_cons_of_error hr]
    | ok stack =>
      rw [hr] at hs
      rw [history_of_step hu hs, reduceAll_cons_of_ok hr]
      exact ih _ (input_advance hi stack)

/-- The states of a history are those that the beginnings of the input lead to,
one for each beginning that can be reduced. -/
theorem getElem?_states (state : State) (k : Nat) :
    state.history.states[k]? =
      if k ≤ state.input.length then
        match reduceAll state.stack (state.input.take k) with
        | .error _ => none
        | .ok stack => some ⟨state.tokens, state.position + k, stack⟩
      else none := by
  induction hi : state.input generalizing state k with
  | nil =>
    rw [history_of_finished (isFinished_of_input_nil hi)]
    cases k with
    | zero => rfl
    | succ k => rfl
  | cons token rest ih =>
    have hu := not_isFinished_of_input_cons hi
    have hs := step_of_input_cons hi
    cases k with
    | zero =>
      obtain ⟨others, ho⟩ := exists_states_eq_cons state
      rw [ho]
      rfl
    | succ k =>
      cases hr : reduce state.stack token with
      | error failure =>
        rw [hr] at hs
        rw [history_of_failed hu hs, List.take_succ_cons, reduceAll_cons_of_error hr]
        simp
      | ok stack =>
        rw [hr] at hs
        have ht := ih _ k (input_advance hi stack)
        have hp : state.position + 1 + k = state.position + (k + 1) := by omega
        rw [history_of_step hu hs, List.getElem?_cons_succ, List.take_succ_cons,
          reduceAll_cons_of_ok hr, ht]
        simp only [List.length_cons, Nat.add_le_add_iff_right, advance, hp]

end PostfixArithmetic.State
