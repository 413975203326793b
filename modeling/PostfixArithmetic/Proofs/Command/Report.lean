import PostfixArithmetic.Proofs.Calculator.Answer
import PostfixArithmetic.Proofs.Command.Words

/-!
# Reports on an expression

A command line with an expression reports what a calculator of the same strictness
makes of it: the final state goes to the standard output and the exit code is 0, or the
mistake goes to the standard error output and the exit code is 1. Tracing runs the
machine on its own and still comes to the same end, so that there is nothing to show
unless there is a final state.
-/

namespace PostfixArithmetic

/-- Lines put together are written one after the other. -/
theorem unlines_append (a b : List String) : unlines (a ++ b) = unlines a ++ unlines b := by
  rw [unlines, List.map_append, String.join_append]
  rfl

/-- A single line is written with its line feed. -/
theorem unlines_singleton (line : String) : unlines [line] = withNewline line := by
  rw [unlines, List.map_singleton, String.join_cons, String.join_nil, String.append_empty]

namespace Calculator

/-- A check hands on the state that it is given. -/
theorem eq_of_check {calculator : Calculator} {state final : State}
    (h : calculator.check state = .ok final) : final = state := by
  rw [check] at h
  split at h
  · cases hr : state.result with
    | error failure =>
      rw [hr] at h
      cases h
    | ok value =>
      rw [hr] at h
      cases h
      rfl
  · cases h
    rfl

/-- A trace is made of the tokens, the history and the end of a run, and there is none
unless the run comes to an end. -/
theorem outcome_trace (calculator : Calculator) (text : String) :
    (calculator.trace text).outcome = do
      let tokens ← tokenize text
      let final ← calculator.run text
      return ⟨text, tokens, (State.initial tokens).history.states, final⟩ := by
  rw [trace, Logged.outcome_bind, outcome_tokenizeLogged, run_eq]
  cases tokenize text with
  | error failure => rfl
  | ok tokens =>
    have he := State.evaluate_eq_history (State.initial tokens)
    change ((State.initial tokens).history.complete >>= _).outcome =
      ((State.initial tokens).evaluate >>= calculator.check) >>= _
    rw [Logged.outcome_bind, History.complete, he]
    cases (State.initial tokens).history.failure with
    | some failure => rfl
    | none => exact Logged.outcome_bind (Logged.quiet _) _

/-- A run that fails leaves no trace. -/
theorem trace_of_run_error {calculator : Calculator} {text : String} {failure : Failure}
    (h : calculator.run text = .error failure) :
    (calculator.trace text).outcome = .error failure := by
  rw [outcome_trace, h]
  rw [run_eq] at h
  cases ht : tokenize text with
  | error first =>
    rw [ht] at h
    cases h
    rfl
  | ok tokens => rfl

/-- A run that succeeds has read all tokens, and its trace ends in the final state. -/
theorem trace_of_run_ok {calculator : Calculator} {text : String} {final : State}
    (h : calculator.run text = .ok final) :
    ∃ tokens, tokenize text = .ok tokens ∧ (State.initial tokens).history.failure = none ∧
      (State.initial tokens).history.states.getLast? = some final ∧
      (calculator.trace text).outcome =
        .ok ⟨text, tokens, (State.initial tokens).history.states, final⟩ := by
  have ht := outcome_trace calculator text
  rw [h] at ht
  rw [run_eq] at h
  cases hk : tokenize text with
  | error failure =>
    rw [hk] at h
    cases h
  | ok tokens =>
    rw [hk] at h ht
    change (State.initial tokens).evaluate >>= calculator.check = _ at h
    rw [State.evaluate_eq_history] at h
    cases hf : (State.initial tokens).history.failure with
    | some failure =>
      rw [hf] at h
      cases h
    | none =>
      rw [hf] at h
      have hfinal := eq_of_check h
      obtain ⟨others, ho⟩ := State.exists_states_eq_cons (State.initial tokens)
      have hlast : (State.initial tokens).history.states.getLast? = some final := by
        rw [hfinal, ho, List.getLast?_cons, List.getLastD_cons, List.getLastD_eq_getLast?]
      exact ⟨tokens, rfl, hf, hlast, ht⟩

end Calculator

namespace Command

/-- What a command shows of the journal of a run. -/
def journal (options : Options) (text : String) : String :=
  journalText options.verbose ((Calculator.new options.strict).runLogged text).records

/-- A report writes down what a run does, traced or not. -/
theorem records_report (calculator : Calculator) (trace : Bool) (text : String) :
    (report calculator trace text).records = (calculator.runLogged text).records := by
  rw [report]
  split
  · rw [Logged.records_bind_of_quiet _ fun traced => rfl, Calculator.records_trace]
  · exact Logged.records_bind_of_quiet _ fun final => rfl

/-- An evaluation shows the lines of the report or its failure, and the journal of a run. -/
theorem evaluateText_eq (options : Options) (text : String) :
    evaluateText options text =
      match (report (Calculator.new options.strict) options.trace text).outcome with
      | .ok lines => ⟨0, unlines lines, journal options text⟩
      | .error failure =>
        ⟨1, "", journal options text ++ withNewline (mistakeText failure.message)⟩ := by
  rw [evaluateText, records_report]
  rfl

/-- A mistake is all that is reported, traced or not. -/
theorem evaluateText_of_run_mistake (options : Options) {text : String} {cause : Diagnostic}
    (h : (Calculator.new options.strict).run text = .error (.diagnostic cause)) :
    evaluateText options text =
      ⟨1, "", journal options text ++ withNewline (Response.mistake cause).text⟩ := by
  have hr : (report (Calculator.new options.strict) options.trace text).outcome =
      .error (.diagnostic cause) := by
    rw [report]
    split
    · rw [Logged.outcome_bind, Calculator.trace_of_run_error h]
      rfl
    · rw [Logged.outcome_bind, ← Calculator.run, h]
      rfl
  rw [evaluateText_eq, hr]
  rfl

/-- Without tracing, the answer is all that is reported. -/
theorem evaluateText_of_run_ok (options : Options) {text : String} {final : State}
    (h : (Calculator.new options.strict).run text = .ok final) (ht : options.trace = false) :
    evaluateText options text =
      ⟨0, withNewline final.response.text, journal options text⟩ := by
  have hr : (report (Calculator.new options.strict) options.trace text).outcome =
      .ok [final.response.text] := by
    rw [report, ht, if_neg Bool.false_ne_true, Logged.outcome_bind, ← Calculator.run, h]
    rfl
  rw [evaluateText_eq, hr, ← unlines_singleton]

/-- With tracing, the lines of the trace come before the answer. -/
theorem evaluateText_of_trace (options : Options) {text : String} {trace : Trace}
    (h : ((Calculator.new options.strict).trace text).outcome = .ok trace)
    (ht : options.trace = true) :
    evaluateText options text =
      ⟨0, unlines trace.lines ++ withNewline trace.final.response.text,
        journal options text⟩ := by
  have hr : (report (Calculator.new options.strict) options.trace text).outcome =
      .ok (trace.lines ++ [trace.final.response.text]) := by
    rw [report, ht, if_pos rfl, Logged.outcome_bind, h]
    rfl
  rw [evaluateText_eq, hr, ← unlines_singleton, ← unlines_append]

/-- Settings around an expression have the joined words evaluated. -/
theorem run_expression {before words after : List String} (hb : ∀ s ∈ before, IsSetting s)
    (hne : words ≠ []) (hw : ∀ w ∈ words, IsExpressionWord w) (ha : ∀ s ∈ after, IsSetting s)
    (input : String) :
    run (before ++ words ++ after) input =
      evaluateText (Options.ofSettings (before ++ after)) (" ".intercalate words) := by
  obtain ⟨w, words, rfl⟩ := List.exists_cons_of_ne_nil hne
  rw [run, Request.parse_settings hb hw ha]

/-- Settings without an expression start a prompt. -/
theorem run_settings {settings : List String} (h : ∀ s ∈ settings, IsSetting s)
    (input : String) : run settings input = prompt (Options.ofSettings settings) input := by
  have hp := Request.parse_settings h (List.forall_mem_nil IsExpressionWord)
    (List.forall_mem_nil IsSetting)
  rw [List.append_nil, List.append_nil] at hp
  rw [run, hp]

/-- Only the joined words of an expression matter. -/
theorem run_expression_of_join {settings words others : List String}
    (hs : ∀ s ∈ settings, IsSetting s) (hne : words ≠ []) (hw : ∀ w ∈ words, IsExpressionWord w)
    (hno : others ≠ []) (ho : ∀ w ∈ others, IsExpressionWord w)
    (hj : " ".intercalate others = " ".intercalate words) (input other : String) :
    run (settings ++ others) other = run (settings ++ words) input := by
  have ha : ∀ s ∈ ([] : List String), IsSetting s := List.forall_mem_nil IsSetting
  have hl := run_expression hs hno ho ha other
  have hr := run_expression hs hne hw ha input
  rw [List.append_nil] at hl hr
  rw [hl, hr, hj]

/-- With settings for strictness and tracing in front of an expression, the command
reports the answer that a calculator of that strictness gives to the joined words. An
answer with a final state is the last line of the output, and the only one unless the
command traces; a mistake is the only line of the error output. -/
theorem run_reports_answer {settings words : List String}
    (hs : ∀ s ∈ settings, s = "--strict" ∨ s = "--trace") (hne : words ≠ [])
    (hw : ∀ w ∈ words, IsExpressionWord w) (input : String) :
    (∃ response,
      ((Calculator.new ("--strict" ∈ settings)).eval (" ".intercalate words)).1 = .ok response ∧
        ((∃ final shown,
            (Calculator.new ("--strict" ∈ settings)).run (" ".intercalate words) = .ok final ∧
              run (settings ++ words) input = ⟨0, shown ++ (response.text ++ "\n"), ""⟩ ∧
              ("--trace" ∉ settings → shown = "")) ∨
          ∃ cause,
            (Calculator.new ("--strict" ∈ settings)).run (" ".intercalate words) =
                .error (.diagnostic cause) ∧
              run (settings ++ words) input = ⟨1, "", response.text ++ "\n"⟩)) ∧
      ∀ (others : List String) (other : String), others ≠ [] →
        (∀ w ∈ others, IsExpressionWord w) → " ".intercalate others = " ".intercalate words →
          run (settings ++ others) other = run (settings ++ words) input := by
  have hsettings := isSetting_of_quiet hs
  have hjournal : journal (Options.ofSettings settings) (" ".intercalate words) = "" := by
    rw [journal, Options.verbose_ofSettings_of_quiet hs]
    rfl
  have hrun := run_expression hsettings hne hw (List.forall_mem_nil IsSetting) input
  rw [List.append_nil, List.append_nil] at hrun
  refine ⟨?_, fun others other hno ho hj =>
    run_expression_of_join hsettings hne hw hno ho hj input other⟩
  rcases Calculator.run_ok_or_mistake (Calculator.new ("--strict" ∈ settings))
    (" ".intercalate words) with ⟨final, hr, -⟩ | ⟨cause, -, hr⟩
  · refine ⟨final.response, by rw [Calculator.eval_of_run_ok hr], Or.inl ?_⟩
    by_cases ht : "--trace" ∈ settings
    · obtain ⟨tokens, -, -, -, htrace⟩ := Calculator.trace_of_run_ok hr
      have ho := evaluateText_of_trace (Options.ofSettings settings) htrace (decide_eq_true ht)
      rw [hjournal] at ho
      exact ⟨final, _, hr, hrun.trans ho, fun hn => absurd ht hn⟩
    · have ho := evaluateText_of_run_ok (Options.ofSettings settings) hr (decide_eq_false ht)
      rw [hjournal] at ho
      exact ⟨final, "", hr, hrun.trans ho, fun _ => rfl⟩
  · have ho := evaluateText_of_run_mistake (Options.ofSettings settings) hr
    rw [hjournal] at ho
    exact ⟨.mistake cause, by rw [Calculator.eval_of_run_mistake hr],
      Or.inr ⟨cause, hr, hrun.trans ho⟩⟩

/-- A traced expression of a number, a lone dash, a dash with a digit, a dash with a
space and an empty word: the first minus sign lacks an operand. -/
theorem run_reports_underflow :
    run ["--trace", "1", "-", "-2", "- 3", ""] "" =
      ⟨1, "", " ? stack underflow for operator -\n"⟩ := by
  have hw : ∀ w ∈ ["1", "-", "-2", "- 3", ""], IsExpressionWord w := by
    simp only [List.forall_mem_cons]
    exact ⟨Or.inl (by decide), Or.inr (Or.inl rfl),
      Or.inr (Or.inr (Or.inl ⟨['2'], by decide, List.forall_mem_singleton.mpr rfl, rfl⟩)),
      Or.inr (Or.inr (Or.inr ⟨['3'], rfl⟩)), Or.inl (by decide), List.forall_mem_nil _⟩
  have hs : ∀ s ∈ ["--trace"], s = "--strict" ∨ s = "--trace" :=
    List.forall_mem_singleton.mpr (Or.inr rfl)
  have he : ((Calculator.new false).eval "1 - -2 - 3 ").1 = .ok (.mistake (.underflow "-")) := by
    decide +kernel
  have hr : (Calculator.new false).run "1 - -2 - 3 " = .error (.diagnostic (.underflow "-")) := by
    decide +kernel
  obtain ⟨⟨response, ha, ho⟩, -⟩ := run_reports_answer hs (List.cons_ne_nil _ _) hw ""
  rcases ho with ⟨final, shown, hok, -⟩ | ⟨cause, -, ho⟩
  · cases hr.symm.trans hok
  · cases he.symm.trans ha
    exact ho

end Command

end PostfixArithmetic
