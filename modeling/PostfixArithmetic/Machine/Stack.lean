import PostfixArithmetic.Machine.Run

/-!
# Reading the stack

Views of the operands that a run leaves: all of them, the top last, or the only
one. Whether exactly one value should be left is for the caller to ask.
-/

namespace PostfixArithmetic.State

/-- The operands as numbers, the top last. -/
def values (state : State) : List Float :=
  state.stack.reverse

/-- The operands as tokens, the top last. -/
def operands (state : State) : List Token :=
  state.values.map .operand

/-- The only value on the stack. -/
def result (state : State) : Except Failure Float :=
  match state.stack with
  | [value] => .ok value
  | _ => .error (.diagnostic (.unbalanced state.values))

/-- There is a result exactly when there is one value. -/
theorem result_eq_ok_iff (state : State) (value : Float) :
    state.result = .ok value ↔ state.values = [value] := by
  unfold result values
  split
  · rename_i single found
    rw [found]
    simp
  · rename_i several
    constructor
    · intro h
      cases h
    · intro h
      rw [List.reverse_eq_iff] at h
      exact absurd h (several value)

/-- Any other number of values is reported with all of them. -/
theorem result_of_length_ne_one {state : State} (h : state.values.length ≠ 1) :
    state.result = .error (.diagnostic (.unbalanced state.values)) := by
  unfold result
  split
  · rename_i single found
    rw [values, found] at h
    exact absurd rfl h
  · rfl

end PostfixArithmetic.State
