import PostfixArithmetic.Proofs.Machine.Stepping

/-!
# Runs in sequence and over other operands

Tokens may be read in two runs, the second of them over the operands that the first one
leaves. A run that succeeds never reaches below the operands that it starts from, so that
others put underneath stay where they are, under every stack on the way. The converse
fails, since operands underneath may save an operator that lacks them. Together this
makes the values of two token sequences that run from nothing stand side by side.
-/

namespace PostfixArithmetic.State

/-- A machine before the first of the tokens, over operands that are there already, the
top last. -/
def loaded (start : List Float) (tokens : List Token) : State :=
  ⟨tokens.toArray, 0, start.reverse⟩

/-- A state with other operands put underneath its own, the top of them last. -/
def onto (state : State) (base : List Float) : State :=
  { state with stack := state.stack ++ base.reverse }

/-- The values underneath come before those of the state. -/
theorem values_onto (state : State) (base : List Float) :
    (state.onto base).values = base ++ state.values := by
  rw [values, onto, List.reverse_append, List.reverse_reverse]
  rfl

/-- Over two lists of operands is over the second, put onto the first. -/
theorem loaded_append (base start : List Float) (tokens : List Token) :
    loaded (base ++ start) tokens = (loaded start tokens).onto base := by
  rw [loaded, List.reverse_append]
  rfl

/-- A run from the first token on leaves the stack that all tokens reduce to. -/
theorem evaluate_loaded (start : List Float) (tokens : List Token) :
    (loaded start tokens).evaluate = (reduceAll start.reverse tokens).map
      fun stack => ⟨tokens.toArray, tokens.length, stack⟩ := by
  have hm : max (loaded start tokens).position (loaded start tokens).tokens.size =
      tokens.length := Nat.zero_max _
  have hi : (loaded start tokens).input = tokens := rfl
  rw [evaluate_eq_reduceAll, hi, hm]
  rfl

/-- Tokens may be read in two runs, the second over what the first one leaves. -/
theorem evaluate_loaded_append (start : List Float) (first second : List Token) :
    (loaded start (first ++ second)).evaluate.map operands =
      (loaded start first).evaluate >>= fun middle =>
        (loaded middle.values second).evaluate.map operands := by
  rw [evaluate_loaded, evaluate_loaded start first]
  cases hr : reduceAll start.reverse first with
  | error failure =>
    rw [reduceAll_append_of_error hr]
    rfl
  | ok stack =>
    change _ = (loaded stack.reverse second).evaluate.map operands
    rw [reduceAll_append_of_ok hr, evaluate_loaded, List.reverse_reverse]
    cases reduceAll stack second <;> rfl

/-- A failure in the first run is the failure of all. -/
theorem evaluate_loaded_append_of_error {start : List Float} {first : List Token}
    {failure : Failure} (h : (loaded start first).evaluate = .error failure)
    (second : List Token) : (loaded start (first ++ second)).evaluate = .error failure := by
  rw [evaluate_loaded] at h
  cases hr : reduceAll start.reverse first with
  | error cause =>
    rw [hr] at h
    cases h
    rw [evaluate_loaded, reduceAll_append_of_error hr]
    rfl
  | ok stack =>
    rw [hr] at h
    cases h

/-- A token that is reduced takes operands from the stack only, and none from a base
underneath. -/
theorem reduce_append {stack later : List Float} {token : Token}
    (h : reduce stack token = .ok later) (base : List Float) :
    reduce (stack ++ base) token = .ok (later ++ base) := by
  rcases reduce_eq_ok h with
    ⟨value, rfl, rfl⟩ | ⟨operation, right, left, below, ht, hk, rfl, rfl⟩
  · rfl
  · rw [reduce_of_not_operand ht]
    exact operate_of_known hk left right (below ++ base)

/-- A step that succeeds is the same step over a base. -/
theorem step_onto {state later : State} (h : state.step = .ok later) (base : List Float) :
    (state.onto base).step = .ok (later.onto base) := by
  obtain ⟨token, rest, stack, hi, hr, rfl⟩ := exists_reduce_of_step h
  have hb : (state.onto base).input = token :: rest := hi
  rw [step_of_input_cons hb, onto, reduce_append hr base.reverse]
  rfl

/-- So are any number of steps. -/
theorem after_onto {state later : State} {k : Nat} (h : state.after k = .ok later)
    (base : List Float) : (state.onto base).after k = .ok (later.onto base) := by
  induction k generalizing state with
  | zero =>
    cases h
    rfl
  | succ k ih =>
    rw [after] at h ⊢
    cases hs : state.step with
    | error failure =>
      rw [hs] at h
      cases h
    | ok next =>
      rw [hs] at h
      rw [step_onto hs base]
      exact ih h

/-- A run that succeeds is the same run over a base, from one state to the next. -/
theorem history_onto {state : State} (h : state.history.failure = none) (base : List Float) :
    (state.onto base).history =
      ⟨state.history.states.map (·.onto base), none, state.history.records⟩ := by
  induction hi : state.input generalizing state with
  | nil =>
    have hf := isFinished_of_input_nil hi
    have hb : (state.onto base).isFinished = true := hf
    rw [history_of_finished hf, history_of_finished hb]
    rfl
  | cons token rest ih =>
    have hu := not_isFinished_of_input_cons hi
    have hb : ¬ (state.onto base).isFinished = true := hu
    cases hs : state.step with
    | error failure =>
      rw [history_of_failed hu hs] at h
      cases h
    | ok later =>
      rw [history_of_step hu hs] at h
      have hl := ih h (input_of_step hi hs)
      rw [history_of_step hu hs, history_of_step hb (step_onto hs base), hl, List.map_cons]
      rfl

/-- A run that succeeds makes a step for each of its tokens, with or without a base. -/
theorem after_of_evaluate_loaded {start : List Float} {tokens : List Token} {final : State}
    (h : (loaded start tokens).evaluate = .ok final) (base : List Float) {k : Nat}
    (hk : k ≤ tokens.length) :
    ∃ own framed : State, (loaded start tokens).after k = .ok own ∧
      (loaded (base ++ start) tokens).after k = .ok framed ∧
        framed.values = base ++ own.values := by
  have hl := length_states_of_complete (evaluate_eq_ok_iff.mp h).1
  have hi : (loaded start tokens).input = tokens := rfl
  rw [hi] at hl
  have ha := after_of_getElem?_states
    (List.getElem?_eq_getElem (l := (loaded start tokens).history.states) (i := k) (by omega))
  refine ⟨_, _, ha, ?_, values_onto _ base⟩
  rw [loaded_append]
  exact after_onto ha base

/-- A run that comes to an end comes to the same end over a base. -/
theorem evaluate_onto {state final : State} (h : state.evaluate = .ok final)
    (base : List Float) : (state.onto base).evaluate = .ok (final.onto base) := by
  obtain ⟨hn, hl⟩ := evaluate_eq_ok_iff.mp h
  rw [evaluate_eq_ok_iff, history_onto hn, List.getLast?_map, hl]
  exact ⟨rfl, rfl⟩

/-- Operands underneath may save an operator that lacks its own. -/
example : (loaded [] [.operator "+"]).evaluate = .error (.diagnostic (.underflow "+")) ∧
    (loaded ([1, 2] ++ []) [.operator "+"]).evaluate.map values = .ok [3] := by
  decide +kernel

/-- Two token sequences one after the other leave what the second leaves over the operands
of the first, with the same failure if there is one, and a failure of the first is that of
both. A run that succeeds does so over any operands put underneath: they stay below every
stack on the way, after each number of steps, and below the last. Therefore the values of
two sequences that both run from nothing come one after the other. -/
theorem runs_in_sequence (start base : List Float) (first second : List Token) :
    (loaded start (first ++ second)).evaluate.map operands =
        ((loaded start first).evaluate >>= fun middle =>
          (loaded middle.values second).evaluate.map operands) ∧
      (∀ failure, (loaded start first).evaluate = .error failure →
        (loaded start (first ++ second)).evaluate = .error failure) ∧
      (∀ final, (loaded start first).evaluate = .ok final →
        ∃ later, (loaded (base ++ start) first).evaluate = .ok later ∧
          later.values = base ++ final.values ∧
          (loaded (base ++ start) first).history.failure = none ∧
          (loaded (base ++ start) first).history.states.map values =
            (loaded start first).history.states.map (fun state => base ++ state.values) ∧
          ∀ k ≤ first.length, ∃ own framed : State, (loaded start first).after k = .ok own ∧
            (loaded (base ++ start) first).after k = .ok framed ∧
              framed.values = base ++ own.values) ∧
      ∀ left right, (loaded [] first).evaluate = .ok left →
        (loaded [] second).evaluate = .ok right →
          ∃ final, (loaded [] (first ++ second)).evaluate = .ok final ∧
            final.values = left.values ++ right.values := by
  refine ⟨evaluate_loaded_append start first second,
    fun failure h => evaluate_loaded_append_of_error h second, fun final h => ?_,
    fun left right hl hr => ?_⟩
  · have hh := history_onto (evaluate_eq_ok_iff.mp h).1 base
    refine ⟨final.onto base, ?_, values_onto final base, ?_, ?_,
      fun k hk => after_of_evaluate_loaded h base hk⟩
    · rw [loaded_append, evaluate_onto h base]
    · rw [loaded_append, hh]
    · rw [loaded_append, hh, List.map_map]
      exact List.map_congr_left fun state _ => values_onto state base
  · have hright := evaluate_onto hr left.values
    rw [← loaded_append, List.append_nil] at hright
    have hs := evaluate_loaded_append [] first second
    rw [hl] at hs
    change _ = (loaded left.values second).evaluate.map operands at hs
    rw [hright] at hs
    cases he : (loaded [] (first ++ second)).evaluate with
    | error failure =>
      rw [he] at hs
      cases hs
    | ok final =>
      rw [he] at hs
      have hv : final.values = (right.onto left.values).values :=
        List.map_injective_iff.mpr (fun x y => Token.operand.inj) (Except.ok.inj hs)
      exact ⟨final, rfl, hv.trans (values_onto right left.values)⟩

/-- A difference over two other values leaves them alone, from its start to its end and
before its sign is read. -/
theorem difference_over_two_values :
    (loaded ([8, 9] ++ []) [.operand 7, .operand 2, .operator "-"]).evaluate.map values =
        .ok [8, 9, 7 - 2] ∧
      (loaded ([8, 9] ++ []) [.operand 7, .operand 2, .operator "-"]).history.states.map values =
        [[8, 9], [8, 9, 7], [8, 9, 7, 2], [8, 9, 7 - 2]] ∧
      ((loaded ([8, 9] ++ []) [.operand 7, .operand 2, .operator "-"]).after 2).map values =
        .ok [8, 9, 7, 2] := by
  have h : (loaded [] [.operand 7, .operand 2, .operator "-"]).evaluate =
      .ok ⟨#[.operand 7, .operand 2, .operator "-"], 3, [7 - 2]⟩ := by
    rw [evaluate_loaded]
    rfl
  have hown : (loaded [] [.operand 7, .operand 2, .operator "-"]).history.states.map values =
      [[], [7], [7, 2], [7 - 2]] := by decide +kernel
  have hsign : (loaded [] [.operand 7, .operand 2, .operator "-"]).after 2 =
      .ok ⟨#[.operand 7, .operand 2, .operator "-"], 2, [2, 7]⟩ := rfl
  obtain ⟨later, he, hv, -, hs, ha⟩ := (runs_in_sequence [] [8, 9] _ []).2.2.1 _ h
  obtain ⟨own, framed, hk, hframed, hvalues⟩ := ha 2 (by decide)
  cases hsign.symm.trans hk
  have hmap : ∀ states : List State, states.map (fun state => [8, 9] ++ state.values) =
      (states.map values).map ([8, 9] ++ ·) := fun states => List.map_map.symm
  refine ⟨?_, ?_, ?_⟩
  · rw [he]
    exact congrArg Except.ok hv
  · rw [hs, hmap, hown]
    rfl
  · rw [hframed]
    exact congrArg Except.ok hvalues

end PostfixArithmetic.State
