import PostfixArithmetic.Journal
import PostfixArithmetic.Machine.State

/-!
# Runs of the machine

A run goes on until the input is exhausted or a step fails. It can be watched,
state by state, or only its end may be asked for. A run that is watched writes down
each token that it has read.
-/

namespace PostfixArithmetic

/-- What a run went through. -/
structure History where
  /-- The states from the start on, one more than there were successful steps. -/
  states : List State
  /-- Why the last of them has no successor, if tokens were left. -/
  failure : Option Failure
  /-- What was written down, once for each successful step. -/
  records : List Record
deriving DecidableEq

/-- The states of a history, unless it ends in a failure. -/
def History.complete (history : History) : Logged (List State) :=
  ⟨history.failure.elim (.ok history.states) .error, history.records⟩

namespace State

/-- What is left to read shrinks with every step. -/
theorem remaining_lt {state later : State} (unfinished : ¬ state.isFinished = true)
    (h : state.step = .ok later) :
    later.tokens.size - later.position < state.tokens.size - state.position := by
  obtain ⟨position, tokens⟩ := position_step h
  simp only [isFinished, decide_eq_true_eq, Nat.not_le] at unfinished
  rw [position, tokens]
  omega

/-- Run the machine and keep every state, the start included. -/
def history (state : State) : History :=
  if state.isFinished then ⟨[state], none, []⟩
  else
    match _ : state.step with
    | .error failure => ⟨[state], some failure, []⟩
    | .ok later =>
      let rest := later.history
      ⟨state :: rest.states, rest.failure,
        .read later.position later.tokens.size :: rest.records⟩
termination_by state.tokens.size - state.position
decreasing_by
  rename_i unfinished stepped
  exact remaining_lt unfinished stepped

/-- Run the machine to the end of the input. -/
def evaluate (state : State) : Except Failure State :=
  if state.isFinished then .ok state
  else
    match _ : state.step with
    | .error failure => .error failure
    | .ok later => later.evaluate
termination_by state.tokens.size - state.position
decreasing_by
  rename_i unfinished stepped
  exact remaining_lt unfinished stepped

/-- Run the machine to the end of the input and write down what it reads. -/
def evaluateLogged (state : State) : Logged State := do
  let states ← state.history.complete
  return states.getLastD state

/-- The history of a finished machine is its state. -/
theorem history_of_finished {state : State} (h : state.isFinished = true) :
    state.history = ⟨[state], none, []⟩ := by
  rw [history]
  simp [h]

/-- A history that fails at once ends with the failure of its first step. -/
theorem history_of_failed {state : State} {failure : Failure}
    (unfinished : ¬ state.isFinished = true) (h : state.step = .error failure) :
    state.history = ⟨[state], some failure, []⟩ := by
  rw [history]
  split
  · contradiction
  · split
    · rename_i found
      rw [h] at found
      cases found
      rfl
    · rename_i found
      rw [h] at found
      cases found

/-- A history goes on with the history of the next state. -/
theorem history_of_step {state later : State} (unfinished : ¬ state.isFinished = true)
    (h : state.step = .ok later) :
    state.history = ⟨state :: later.history.states, later.history.failure,
      .read later.position later.tokens.size :: later.history.records⟩ := by
  rw [history]
  split
  · contradiction
  · split
    · rename_i found
      rw [h] at found
      cases found
    · rename_i found
      rw [h] at found
      cases found
      rfl

/-- A history begins with the state that it starts from. -/
theorem exists_states_eq_cons (state : State) :
    ∃ others, state.history.states = state :: others := by
  by_cases finished : state.isFinished = true
  · exact ⟨[], by rw [history_of_finished finished]⟩
  · cases stepped : state.step with
    | error failure => exact ⟨[], by rw [history_of_failed finished stepped]⟩
    | ok later => exact ⟨later.history.states, by rw [history_of_step finished stepped]⟩

/-- A finished machine stays as it is. -/
theorem evaluate_of_finished {state : State} (h : state.isFinished = true) :
    state.evaluate = .ok state := by
  rw [evaluate]
  simp [h]

/-- A run that fails at once has the failure of its first step. -/
theorem evaluate_of_failed {state : State} {failure : Failure}
    (unfinished : ¬ state.isFinished = true) (h : state.step = .error failure) :
    state.evaluate = .error failure := by
  rw [evaluate]
  split
  · contradiction
  · split
    · rename_i found
      rw [h] at found
      cases found
      rfl
    · rename_i found
      rw [h] at found
      cases found

/-- A run may be resumed after its first step. -/
theorem evaluate_of_step {state later : State} (unfinished : ¬ state.isFinished = true)
    (h : state.step = .ok later) : state.evaluate = later.evaluate := by
  rw [evaluate]
  split
  · contradiction
  · split
    · rename_i found
      rw [h] at found
      cases found
    · rename_i found
      rw [h] at found
      cases found
      rfl

/-- The end of a run is the last state of its history, unless the history fails. -/
theorem evaluate_eq_history (state : State) :
    state.evaluate =
      match state.history.failure with
      | some failure => .error failure
      | none => .ok (state.history.states.getLastD state) := by
  induction remaining : state.tokens.size - state.position using Nat.strongRecOn
    generalizing state with
  | ind remaining ih =>
    by_cases finished : state.isFinished = true
    · rw [evaluate_of_finished finished, history_of_finished finished]
      rfl
    · cases stepped : state.step with
      | error failure =>
        rw [evaluate_of_failed finished stepped, history_of_failed finished stepped]
      | ok later =>
        have smaller := remaining_lt finished stepped
        have rest := ih _ (by omega) later rfl
        rw [evaluate_of_step finished stepped, history_of_step finished stepped, rest]
        cases later.history.failure with
        | some failure => rfl
        | none =>
          obtain ⟨others, states⟩ := exists_states_eq_cons later
          simp only [states, List.getLastD_cons]

/-- A run ends alike whether it is written down or not. -/
theorem outcome_evaluateLogged (state : State) :
    state.evaluateLogged.outcome = state.evaluate := by
  rw [evaluateLogged, Logged.outcome_bind, evaluate_eq_history, History.complete]
  cases state.history.failure <;> rfl

/-- A run that is written down has the entries of its history. -/
theorem records_evaluateLogged (state : State) :
    state.evaluateLogged.records = state.history.records :=
  Logged.records_bind_of_quiet state.history.complete fun _ => rfl

end State

end PostfixArithmetic
