import Mathlib.Data.List.Chain
import PostfixArithmetic.Proofs.Machine.Reduction

/-!
# Step by step

The states of a history are those that repeated steps lead to. From one to the next
the values grow by one at the end, or the last two of them become one.
-/

namespace PostfixArithmetic

/-- A stack of values, the top last, after one more token: a value is appended, or the
last two are replaced by one. -/
def Follows (earlier later : List Float) : Prop :=
  (∃ value, later = earlier ++ [value]) ∨
    ∃ below left right value, earlier = below ++ [left, right] ∧ later = below ++ [value]

namespace State

/-- The state after so many steps. -/
def after : Nat → State → Except Failure State
  | 0, state => .ok state
  | count + 1, state => state.step >>= after count

/-- A finished machine has no step left. -/
theorem step_of_finished {state : State} (h : state.isFinished = true) :
    state.step = .error (.diagnostic .exhausted) := by
  rw [step, getElem?_position, state.isFinished_iff.mp h]
  rfl

/-- A step that succeeds reduces the stack by the first token of the input. -/
theorem exists_reduce_of_step {state later : State} (h : state.step = .ok later) :
    ∃ token rest stack, state.input = token :: rest ∧
      reduce state.stack token = .ok stack ∧ later = state.advance stack := by
  cases hi : state.input with
  | nil =>
    rw [step_of_finished (isFinished_of_input_nil hi)] at h
    cases h
  | cons token rest =>
    rw [step_of_input_cons hi] at h
    cases hr : reduce state.stack token with
    | error failure =>
      rw [hr] at h
      cases h
    | ok stack =>
      rw [hr] at h
      cases h
      exact ⟨token, rest, stack, rfl, hr, rfl⟩

/-- A step leaves the tokens behind the first one. -/
theorem input_of_step {state later : State} {token : Token} {rest : List Token}
    (hi : state.input = token :: rest) (h : state.step = .ok later) : later.input = rest := by
  obtain ⟨_, _, stack, hread, -, rfl⟩ := exists_reduce_of_step h
  exact input_advance hi stack

/-- A history holds a state for each number of steps that can be made. -/
theorem getElem?_states_eq_after (state : State) (k : Nat) :
    state.history.states[k]? = (state.after k).toOption := by
  induction k generalizing state with
  | zero =>
    obtain ⟨others, ho⟩ := exists_states_eq_cons state
    rw [ho]
    rfl
  | succ k ih =>
    rw [after]
    by_cases hf : state.isFinished = true
    · rw [history_of_finished hf, step_of_finished hf]
      rfl
    · cases hs : state.step with
      | error failure =>
        rw [history_of_failed hf hs]
        rfl
      | ok later =>
        rw [history_of_step hf hs, List.getElem?_cons_succ, ih later]
        rfl

/-- The state in a history is the state after as many steps. -/
theorem after_of_getElem?_states {state later : State} {k : Nat}
    (h : state.history.states[k]? = some later) : state.after k = .ok later := by
  rw [getElem?_states_eq_after] at h
  cases hk : state.after k with
  | error failure =>
    rw [hk] at h
    cases h
  | ok found =>
    rw [hk] at h
    cases h
    rfl

/-- A run fails as its history does. -/
theorem evaluate_eq_error_iff {state : State} {failure : Failure} :
    state.evaluate = .error failure ↔ state.history.failure = some failure := by
  rw [evaluate_eq_history]
  cases state.history.failure with
  | none => simp
  | some cause => simp

/-- A run ends in the last state of a history without a failure. -/
theorem evaluate_eq_ok_iff {state final : State} :
    state.evaluate = .ok final ↔
      state.history.failure = none ∧ state.history.states.getLast? = some final := by
  rw [evaluate_eq_history]
  cases state.history.failure with
  | none =>
    obtain ⟨others, ho⟩ := exists_states_eq_cons state
    simp [ho, List.getLast?_cons, List.getLastD_eq_getLast?]
  | some cause => simp

/-- A token that is reduced appends a value or replaces the last two. -/
theorem follows_of_reduce {stack later : List Float} {token : Token}
    (h : reduce stack token = .ok later) : Follows stack.reverse later.reverse := by
  rcases reduce_eq_ok h with ⟨value, -, rfl⟩ | ⟨operation, right, left, below, -, -, rfl, rfl⟩
  · exact Or.inl ⟨value, List.reverse_cons⟩
  · refine Or.inr ⟨below.reverse, left, right, operation.apply left right, ?_, List.reverse_cons⟩
    simp only [List.reverse_cons, List.append_assoc, List.cons_append, List.nil_append]

/-- So does a step. -/
theorem follows_of_step {state later : State} (h : state.step = .ok later) :
    Follows state.values later.values := by
  obtain ⟨token, rest, stack, -, hr, rfl⟩ := exists_reduce_of_step h
  exact follows_of_reduce hr

/-- One more step is a step at the end. -/
theorem after_succ (state : State) (k : Nat) :
    state.after (k + 1) = state.after k >>= step := by
  induction k generalizing state with
  | zero =>
    change (state.step >>= fun later => Except.ok later) = state.step
    cases state.step <;> rfl
  | succ k ih =>
    rw [after]
    cases hs : state.step with
    | error failure =>
      rw [after, hs]
      rfl
    | ok later =>
      have hk : state.after (k + 1) = later.after k := by
        rw [after, hs]
        rfl
      rw [hk]
      exact ih later

/-- The values of successive states in a history follow one another. -/
theorem isChain_values_history (state : State) :
    (state.history.states.map values).IsChain Follows := by
  rw [List.isChain_iff_getElem]
  intro k hk
  rw [List.length_map] at hk
  have he := after_of_getElem?_states (List.getElem?_eq_getElem (Nat.lt_of_succ_lt hk))
  have hl := after_of_getElem?_states (List.getElem?_eq_getElem hk)
  rw [after_succ, he] at hl
  rw [List.getElem_map, List.getElem_map]
  exact follows_of_step hl

/-- A history without a failure has one state more than there are tokens to read. -/
theorem length_states_of_complete {state : State} (h : state.history.failure = none) :
    state.history.states.length = state.input.length + 1 := by
  rw [failure_history] at h
  cases hr : reduceAll state.stack state.input with
  | error failure =>
    rw [hr] at h
    cases h
  | ok stack =>
    have hlast : state.history.states[state.input.length]? ≠ none := by
      rw [getElem?_states, if_pos (Nat.le_refl _), List.take_length, hr]
      exact Option.some_ne_none _
    have hnone : state.history.states[state.input.length + 1]? = none := by
      rw [getElem?_states, if_neg (by omega)]
    rw [ne_eq, List.getElem?_eq_none_iff] at hlast
    rw [List.getElem?_eq_none_iff] at hnone
    omega

end State

end PostfixArithmetic
