import PostfixArithmetic.Proofs.Calculator.Answer

/-!
# Sessions on one calculator

A client evaluates texts, runs or splits them without having them remembered, and changes
the strictness in between. Whatever the order, the calculator remembers the final state of
the last evaluation without a mistake, and an answer depends on the strictness but not on
what is remembered.
-/

namespace PostfixArithmetic.Calculator

/-- Something a client may ask of a calculator. -/
inductive Action where
  /-- Evaluate a text. -/
  | eval (text : String)
  /-- Run a text. -/
  | run (text : String)
  /-- Split a text into tokens. -/
  | tokenize (text : String)
  /-- Set the strictness. -/
  | setStrict (strict : Bool)

/-- The answer to an action. -/
inductive Answer where
  /-- The response to a text. -/
  | response (outcome : Except Failure Response)
  /-- The state that a run ends in. -/
  | state (outcome : Except Failure State)
  /-- The tokens of a text. -/
  | tokens (outcome : Except Failure (List Token))
  /-- The strictness is set. -/
  | set

/-- Perform one action. -/
def act (calculator : Calculator) : Action → Answer × Calculator
  | .eval text =>
    let (outcome, later) := calculator.eval text
    (.response outcome, later)
  | .run text => (.state (calculator.run text), calculator)
  | .tokenize text => (.tokens (PostfixArithmetic.tokenize text), calculator)
  | .setStrict strict => (.set, calculator.setStrict strict)

/-- The calculator after some actions. -/
def after (calculator : Calculator) (actions : List Action) : Calculator :=
  actions.foldl (fun current action => (current.act action).2) calculator

/-- The strictness that an action sets, if it does. -/
def Action.strictness? : Action → Option Bool
  | setStrict strict => some strict
  | _ => none

/-- The last strictness that actions set, or else the one before them. -/
def strictnessAfter (strict : Bool) (actions : List Action) : Bool :=
  (actions.filterMap Action.strictness?).getLastD strict

/-- A run of a text ends in one of the mistakes of a text, and that is the response. -/
def Fails (calculator : Calculator) (text : String) : Prop :=
  ∃ cause : Diagnostic, cause.Arises ∧ calculator.run text = .error (.diagnostic cause) ∧
    (calculator.eval text).1 = .ok (.mistake cause)

/-- Every evaluation among the actions fails, at its place in the session. -/
def NoneSucceeds (calculator : Calculator) (actions : List Action) : Prop :=
  ∀ earlier text later, actions = earlier ++ .eval text :: later →
    (calculator.after earlier).Fails text

/-- The first action comes before the others. -/
theorem after_cons (calculator : Calculator) (action : Action) (actions : List Action) :
    calculator.after (action :: actions) = (calculator.act action).2.after actions := rfl

/-- If the first action does not succeed and no later evaluation does, none succeeds. -/
theorem NoneSucceeds.cons {calculator : Calculator} {action : Action} {actions : List Action}
    (hfirst : ∀ text, action = .eval text → calculator.Fails text)
    (hrest : (calculator.act action).2.NoneSucceeds actions) :
    calculator.NoneSucceeds (action :: actions) := by
  intro earlier text later h
  cases earlier with
  | nil => exact hfirst text (List.cons.inj h).1
  | cons first earlier =>
    obtain ⟨rfl, hr⟩ := List.cons.inj h
    exact hrest earlier text later hr

/-- An action is an evaluation that succeeds and is remembered, or what is remembered
stays the same. -/
theorem act_cases (calculator : Calculator) (action : Action) :
    (∃ text final, action = .eval text ∧ calculator.run text = .ok final ∧
        (calculator.act action).2.lastState = some final) ∨
      (∀ text, action = .eval text → calculator.Fails text) ∧
        (calculator.act action).2.lastState = calculator.lastState := by
  cases action with
  | eval text =>
    rcases run_ok_or_mistake calculator text with ⟨final, hr, -⟩ | ⟨cause, ha, hr⟩
    · refine Or.inl ⟨text, final, rfl, hr, ?_⟩
      rw [act, eval_of_run_ok hr]
    · refine Or.inr ⟨fun found hf => ?_, by rw [act, eval_of_run_mistake hr]⟩
      cases hf
      exact ⟨cause, ha, hr, by rw [eval_of_run_mistake hr]⟩
  | run text => exact Or.inr ⟨fun _ h => (nomatch h), rfl⟩
  | tokenize text => exact Or.inr ⟨fun _ h => (nomatch h), rfl⟩
  | setStrict strict => exact Or.inr ⟨fun _ h => (nomatch h), rfl⟩

/-- An evaluation that fails is not one that succeeds. -/
theorem Fails.run_ne_ok {calculator : Calculator} {text : String} (h : calculator.Fails text)
    (final : State) : calculator.run text ≠ .ok final := by
  intro hok
  obtain ⟨cause, -, hr, -⟩ := h
  cases hr.symm.trans hok

/-- Only a success changes what is remembered. -/
theorem lastState_act {calculator : Calculator} {action : Action}
    (h : ∀ text, action = .eval text → calculator.Fails text) :
    (calculator.act action).2.lastState = calculator.lastState := by
  rcases calculator.act_cases action with ⟨text, final, ha, hr, -⟩ | ⟨-, hl⟩
  · exact absurd hr ((h text ha).run_ne_ok final)
  · exact hl

/-- Only a setting changes the strictness. -/
theorem strict_act (calculator : Calculator) (action : Action) :
    (calculator.act action).2.strict = action.strictness?.getD calculator.strict := by
  cases action with
  | eval text => exact calculator.strict_eval text
  | run text => rfl
  | tokenize text => rfl
  | setStrict strict => rfl

/-- What comes back depends on the strictness but not on what is remembered. -/
theorem answer_act_of_strict {a b : Calculator} (h : a.strict = b.strict) (action : Action) :
    (a.act action).1 = (b.act action).1 := by
  cases action with
  | eval text => exact congrArg Answer.response (eval_of_strict h text)
  | run text => exact congrArg Answer.state (run_of_strict h text)
  | tokenize text => rfl
  | setStrict strict => rfl

/-- After a session the strictness is the last that was set. -/
theorem strict_after (calculator : Calculator) (actions : List Action) :
    (calculator.after actions).strict = strictnessAfter calculator.strict actions := by
  induction actions generalizing calculator with
  | nil => rfl
  | cons action actions ih =>
    rw [after_cons, ih, strict_act, strictnessAfter, strictnessAfter, List.filterMap_cons]
    cases action.strictness? with
    | none => rfl
    | some strict => rw [Option.getD_some, List.getLastD_cons]

/-- After a session what is remembered is the final state of the last evaluation that
succeeded, or what was remembered before. -/
theorem lastState_after (calculator : Calculator) (actions : List Action) :
    (calculator.NoneSucceeds actions ∧
        (calculator.after actions).lastState = calculator.lastState) ∨
      ∃ earlier text later final, actions = earlier ++ .eval text :: later ∧
        (calculator.after earlier).run text = .ok final ∧
        (calculator.after (earlier ++ [.eval text])).NoneSucceeds later ∧
        (calculator.after actions).lastState = some final := by
  induction actions generalizing calculator with
  | nil =>
    refine Or.inl ⟨fun earlier text later h => ?_, rfl⟩
    exact absurd h.symm (List.append_ne_nil_of_right_ne_nil _ (List.cons_ne_nil _ _))
  | cons action actions ih =>
    -- A success among the later actions hides whatever the first one did.
    rcases ih (calculator.act action).2 with ⟨hnone, hl⟩ | ⟨earlier, text, later, final, rfl, hs⟩
    · rw [after_cons, hl]
      rcases calculator.act_cases action with ⟨text, final, rfl, hr, hf⟩ | ⟨hfail, hsame⟩
      · exact Or.inr ⟨[], text, actions, final, rfl, hr, hnone, hf⟩
      · exact Or.inl ⟨.cons hfail hnone, hsame⟩
    · exact Or.inr ⟨action :: earlier, text, later, final, rfl, hs⟩

/-- A strict evaluation that fails and a run leave the values of the evaluation before. -/
example :
    (((new false).after
      [.eval "1 2", .setStrict true, .eval "3 4", .run "5"]).lastState.map State.values) =
      some [1, 2] := by
  decide +kernel

/-- After every session with a new calculator, nothing is remembered as long as no
evaluation has succeeded. Afterwards it is the final state of the last evaluation that
did, under the strictness then in force: a finished state with nothing but operands, and
that evaluation's response shows it. Whatever comes next, only a success is remembered
and only a setting changes the strictness, and what comes back is what a new calculator
of the same strictness would answer. For each text, strictness changes nothing or turns
another number of values than one into a mistake that tells their number. -/
theorem remembers_last_success (strict : Bool) (actions : List Action) :
    ∃ calculator, (new strict).after actions = calculator ∧
      calculator.strict = strictnessAfter strict actions ∧
      ((new strict).NoneSucceeds actions ∧ calculator.lastState = none ∨
        ∃ earlier text later final, actions = earlier ++ .eval text :: later ∧
          (new (strictnessAfter strict earlier)).run text = .ok final ∧
          ((new strict).after (earlier ++ [.eval text])).NoneSucceeds later ∧
          calculator.lastState = some final ∧ final.isFinished = true ∧
          (∀ token ∈ final.operands, token.isOperand = true) ∧
          (((new strict).after earlier).eval text).1 = .ok final.response) ∧
      (∀ action, (∀ text, action = .eval text → calculator.Fails text) →
        (calculator.act action).2.lastState = calculator.lastState) ∧
      (∀ action, (calculator.act action).1 = ((new calculator.strict).act action).1) ∧
      ∀ text, ∃ lenient, ((new false).eval text).1 = .ok lenient ∧
        (((new true).eval text).1 = .ok lenient ∧
            (∀ values, lenient = .ok values → values.length = 1) ∨
          ∃ values, lenient = .ok values ∧ values.length ≠ 1 ∧
            ((new true).eval text).1 = .ok (.mistake (.unbalanced values)) ∧
            (Response.mistake (.unbalanced values)).text =
              " ? expected exactly one value on the stack, found " ++
                toString values.length) := by
  have hstrict : ((new strict).after actions).strict =
      (new ((new strict).after actions).strict).strict := rfl
  refine ⟨_, rfl, strict_after _ actions, ?_, fun action => lastState_act,
    answer_act_of_strict hstrict, fun text => ?_⟩
  · rcases lastState_after (new strict) actions with
      hnone | ⟨earlier, text, later, final, ha, hr, hlater, hl⟩
    · exact Or.inl hnone
    · have hoperands : ∀ token ∈ final.operands, token.isOperand = true := by
        intro token ht
        obtain ⟨value, -, rfl⟩ := List.mem_map.mp ht
        rfl
      have hfresh : (new (strictnessAfter strict earlier)).run text = .ok final :=
        (run_of_strict (strict_after (new strict) earlier).symm text).trans hr
      exact Or.inr ⟨earlier, text, later, final, ha, hfresh, hlater, hl, isFinished_of_run_ok hr,
        hoperands, by rw [eval_of_run_ok hr]⟩
  · obtain ⟨lenient, hlenient, hsame | ⟨values, hv, hl, hs⟩⟩ := eval_strict text
    · exact ⟨lenient, hlenient, Or.inl hsame⟩
    · exact ⟨lenient, hlenient, Or.inr ⟨values, hv, hl, hs, rfl⟩⟩

end PostfixArithmetic.Calculator
