import PostfixArithmetic.Proofs.Command.Transcript
import PostfixArithmetic.Proofs.Lexer.Rendering
import PostfixArithmetic.Proofs.Machine.Stepping

/-!
# What a verbose command adds

A verbose command does what it would do otherwise, and writes down how far it got. There is
one line for a text that was split into tokens, one for each token that the machine read,
and at the prompt one for a mistake. Texts are quoted, so that no text can add a line of its
own.
-/

namespace PostfixArithmetic

/-- The line for a text that was split into so many tokens. -/
def lexedLine (text : String) (count : Nat) : String :=
  "rpn.lexer: lexed " ++ Quoted.quote text ++ " into " ++ toString count ++ " tokens"

/-- The line for a token that was read. -/
def readLine (index total : Nat) : String :=
  "rpn.machine: read token " ++ toString index ++ " of " ++ toString total

/-- The line for a mistake at the prompt. -/
def mistakeLine (text : String) (cause : Diagnostic) : String :=
  "rpn.machine: error evaluating " ++ Quoted.quote text ++ ": " ++ cause.message

/-- The lines for the first tokens of all, in order. -/
def readLines (count total : Nat) : List String :=
  (List.range' 1 count).map fun index => readLine index total

/-- The lines that are written while a text is evaluated. -/
inductive EvaluationLog (text : String) : List String → Prop where
  /-- A text that is not split into tokens leaves none. -/
  | unlexed {failure : Failure} (h : tokenize text = .error failure) : EvaluationLog text []
  /-- If the machine gets through, all tokens are read. -/
  | complete {tokens : List Token} {final : State} (h : tokenize text = .ok tokens)
    (he : (State.initial tokens).evaluate = .ok final) :
    EvaluationLog text (lexedLine text tokens.length :: readLines tokens.length tokens.length)
  /-- Otherwise those in front of an operator that lacks operands are read. -/
  | starved {tokens earlier later : List Token} {symbol : String} {state : State}
    (h : tokenize text = .ok tokens) (ht : tokens = earlier ++ .operator symbol :: later)
    (he : (State.initial earlier).evaluate = .ok state) (hs : state.stack.length < 2) :
    EvaluationLog text (lexedLine text tokens.length :: readLines earlier.length tokens.length)

/-- The lines that are written for a line of input at the prompt. -/
inductive LineLog (strict : Bool) (line : String) : List String → Prop where
  /-- With an answer there are no others. -/
  | answered {log : List String} {values : List Float} (h : EvaluationLog line log)
    (hr : ((Calculator.new strict).eval line).1 = .ok (.ok values)) : LineLog strict line log
  /-- A mistake adds the last one. -/
  | mistaken {log : List String} {cause : Diagnostic} (h : EvaluationLog line log)
    (hr : ((Calculator.new strict).eval line).1 = .ok (.mistake cause)) :
    LineLog strict line (log ++ [mistakeLine line cause])

/-- Entries are written as these lines. -/
theorem Record.line_lexed (text : String) (count : Nat) :
    (Record.lexed text count).line = lexedLine text count := by
  have h : "rpn.lexer" ++ ": " ++ "lexed " = "rpn.lexer: lexed " := rfl
  unfold Record.line Record.component Record.message lexedLine
  rw [← h]
  simp only [String.append_assoc]

/-- So are those for tokens. -/
theorem Record.line_read (index total : Nat) :
    (Record.read index total).line = readLine index total := by
  have h : "rpn.machine" ++ ": " ++ "read token " = "rpn.machine: read token " := rfl
  unfold Record.line Record.component Record.message readLine
  rw [← h]
  simp only [String.append_assoc]

/-- So are those for mistakes. -/
theorem Record.line_mistake (text : String) (cause : Diagnostic) :
    (Record.mistake text cause).line = mistakeLine text cause := by
  have h : "rpn.machine" ++ ": " ++ "error evaluating " = "rpn.machine: error evaluating " :=
    rfl
  unfold Record.line Record.component Record.message mistakeLine
  rw [← h]
  simp only [String.append_assoc]

namespace State

/-- A reduction that fails does so at one of its tokens, on the stack that those in front of
it leave. -/
theorem exists_split_of_error {stack : List Float} {tokens : List Token} {failure : Failure}
    (h : reduceAll stack tokens = .error failure) :
    ∃ earlier token later middle, tokens = earlier ++ token :: later ∧
      reduceAll stack earlier = .ok middle ∧ reduce middle token = .error failure := by
  induction tokens generalizing stack with
  | nil => cases h
  | cons token tokens ih =>
    cases hr : reduce stack token with
    | error first =>
      rw [reduceAll_cons_of_error hr] at h
      cases h
      exact ⟨[], token, tokens, stack, rfl, rfl, hr⟩
    | ok next =>
      rw [reduceAll_cons_of_ok hr] at h
      obtain ⟨earlier, found, later, middle, rfl, he, hf⟩ := ih h
      exact ⟨token :: earlier, found, later, middle, rfl, by rw [reduceAll_cons_of_ok hr, he], hf⟩

/-- From the start, such a run goes through one state for each token in front, behind the
first. -/
theorem length_states_of_split {earlier later : List Token} {token : Token} {stack : List Float}
    {failure : Failure} (he : reduceAll [] earlier = .ok stack)
    (hr : reduce stack token = .error failure) :
    (initial (earlier ++ token :: later)).history.states.length = earlier.length + 1 := by
  have hlast := getElem?_states (initial (earlier ++ token :: later)) earlier.length
  have hnone := getElem?_states (initial (earlier ++ token :: later)) (earlier.length + 1)
  have hstack : (initial (earlier ++ token :: later)).stack = [] := rfl
  have htake : (earlier ++ token :: later).take (earlier.length + 1) = earlier ++ [token] := by
    rw [List.append_cons, List.take_left' (by rw [List.length_append]; rfl)]
  have herror : reduceAll [] (earlier ++ [token]) = .error failure := by
    rw [reduceAll_append_of_ok he, reduceAll_cons_of_error hr]
  rw [input_initial, hstack, if_pos (by simp), List.take_left, he] at hlast
  rw [input_initial, hstack, if_pos (by simp), htake, herror] at hnone
  have hlt := (List.getElem?_eq_some_iff.mp hlast).1
  have hle := List.getElem?_eq_none_iff.mp hnone
  omega

/-- A history writes down the positions behind the tokens that are read, in order. -/
theorem records_history {state : State} {count : Nat}
    (h : state.history.states.length = count + 1) :
    state.history.records = (List.range' (state.position + 1) count).map
      fun index => .read index state.tokens.size := by
  induction count generalizing state with
  | zero =>
    by_cases hf : state.isFinished = true
    · rw [history_of_finished hf]
      rfl
    · cases hs : state.step with
      | error failure =>
        rw [history_of_failed hf hs]
        rfl
      | ok later =>
        obtain ⟨others, ho⟩ := exists_states_eq_cons later
        rw [history_of_step hf hs, ho] at h
        simp at h
  | succ count ih =>
    by_cases hf : state.isFinished = true
    · rw [history_of_finished hf] at h
      simp at h
    · cases hs : state.step with
      | error failure =>
        rw [history_of_failed hf hs] at h
        simp at h
      | ok later =>
        obtain ⟨hp, ht⟩ := position_step hs
        rw [history_of_step hf hs] at h ⊢
        rw [ih (Nat.succ.inj h), List.range'_succ, List.map_cons, hp, ht]

/-- A run from the start leaves the stack that its tokens reduce to. -/
theorem reduceAll_of_evaluate {tokens : List Token} {final : State}
    (h : (initial tokens).evaluate = .ok final) : reduceAll [] tokens = .ok final.stack := by
  cases hr : reduceAll [] tokens with
  | error failure =>
    rw [evaluate_initial_of_error hr] at h
    cases h
  | ok stack =>
    rw [evaluate_initial_of_ok hr] at h
    cases h
    rfl

/-- A run from the start that comes to its end goes through one state for each token, behind
the first. -/
theorem length_states_of_evaluate {tokens : List Token} {final : State}
    (h : (initial tokens).evaluate = .ok final) :
    (initial tokens).history.states.length = tokens.length + 1 := by
  have hs : (initial tokens).stack = [] := rfl
  refine length_states_of_complete ?_
  rw [failure_history, input_initial, hs, reduceAll_of_evaluate h]

end State

/-- Only too few operands stop a lexical token. -/
theorem Token.IsLexical.operator_of_error {token : Token} (h : token.IsLexical)
    {stack : List Float} {failure : Failure} (hr : State.reduce stack token = .error failure) :
    ∃ symbol, token = .operator symbol ∧ stack.length < 2 := by
  obtain ⟨operation, rfl⟩ | ⟨x, rfl, -⟩ := h
  · refine ⟨operation.symbol, rfl, ?_⟩
    have hknown : Operation.ofSymbol? operation.symbol = some operation := by
      cases operation <;> rfl
    match stack with
    | [] => exact Nat.zero_lt_two
    | [_] => exact Nat.one_lt_two
    | right :: left :: below =>
      change State.operate operation.symbol (right :: left :: below) = _ at hr
      rw [State.operate_of_known hknown] at hr
      cases hr
  · cases hr

namespace Calculator

/-- The entries of a text that was split into tokens, as lines: one for the text, and one for
each state behind the first. -/
theorem map_line_runLogged (calculator : Calculator) {text : String} {tokens : List Token}
    {count : Nat} (ht : tokenize text = .ok tokens)
    (hl : (State.initial tokens).history.states.length = count + 1) :
    (calculator.runLogged text).records.map Record.line =
      lexedLine text tokens.length :: readLines count tokens.length := by
  rw [records_runLogged ht, State.records_history hl, List.map_cons, List.map_map,
    Record.line_lexed, readLines]
  exact congrArg (List.cons _) (List.map_congr_left fun index _ => Record.line_read index _)

/-- The entries for a text are written as these lines, and there are no others. -/
theorem evaluationLog_iff (calculator : Calculator) {text : String} {log : List String} :
    EvaluationLog text log ↔ log = (calculator.runLogged text).records.map Record.line := by
  have hnone : ∀ {failure : Failure}, tokenize text = .error failure →
      (calculator.runLogged text).records = [] := fun ht =>
    records_tokenizeLogged_bind_of_error ht _
  constructor
  · intro h
    cases h with
    | unlexed ht => rw [hnone ht, List.map_nil]
    | complete ht he =>
      exact (calculator.map_line_runLogged ht (State.length_states_of_evaluate he)).symm
    | @starved tokens earlier later symbol state ht hsplit he hs =>
      subst hsplit
      have hr : State.reduce state.stack (.operator symbol) =
          .error (.diagnostic (.underflow symbol)) := State.operate_of_short hs symbol
      refine (calculator.map_line_runLogged ht ?_).symm
      exact State.length_states_of_split (State.reduceAll_of_evaluate he) hr
  · rintro rfl
    cases ht : tokenize text with
    | error failure =>
      rw [hnone ht]
      exact .unlexed ht
    | ok tokens =>
      cases hr : State.reduceAll [] tokens with
      | ok stack =>
        have he := State.evaluate_initial_of_ok hr
        rw [calculator.map_line_runLogged ht (State.length_states_of_evaluate he)]
        exact .complete ht he
      | error failure =>
        obtain ⟨earlier, token, later, middle, rfl, he, hf⟩ := State.exists_split_of_error hr
        have hlexical := isLexical_of_scan text.toList ht token (by simp)
        obtain ⟨symbol, rfl, hs⟩ := hlexical.operator_of_error hf
        rw [calculator.map_line_runLogged ht (State.length_states_of_split he hf)]
        exact .starved ht rfl (State.evaluate_initial_of_ok he) hs

end Calculator

/-- A line for a token is printed. -/
theorem printed_readLine (index total : Nat) : Printed (readLine index total) := by
  have hfirst : Printed "rpn.machine: read token " := List.all_eq_true.mp (by decide)
  have hsecond : Printed " of " := List.all_eq_true.mp (by decide)
  exact ((hfirst.append (printed_repr index)).append hsecond).append (printed_repr total)

/-- A line for a text is printed, whatever the text is. -/
theorem printed_lexedLine (text : String) (count : Nat) : Printed (lexedLine text count) := by
  have hfirst : Printed "rpn.lexer: lexed " := List.all_eq_true.mp (by decide)
  have hsecond : Printed " into " := List.all_eq_true.mp (by decide)
  have hthird : Printed " tokens" := List.all_eq_true.mp (by decide)
  exact (((hfirst.append (Quoted.printed_quote text)).append hsecond).append
    (printed_repr count)).append hthird

/-- A line for a mistake is printed. -/
theorem printed_mistakeLine (text : String) {cause : Diagnostic} (h : cause.Arises) :
    Printed (mistakeLine text cause) := by
  have hfirst : Printed "rpn.machine: error evaluating " := List.all_eq_true.mp (by decide)
  have hsecond : Printed ": " := List.all_eq_true.mp (by decide)
  exact ((hfirst.append (Quoted.printed_quote text)).append hsecond).append h.printed

/-- All lines for the evaluation of a text are printed. -/
theorem EvaluationLog.printed {text : String} {log : List String} (h : EvaluationLog text log) :
    ∀ line ∈ log, Printed line := by
  have hread : ∀ count total : Nat, ∀ line ∈ readLines count total, Printed line := by
    intro count total line hl
    obtain ⟨index, -, rfl⟩ := List.mem_map.mp hl
    exact printed_readLine index total
  cases h with
  | unlexed ht => exact List.forall_mem_nil _
  | complete ht he => exact List.forall_mem_cons.mpr ⟨printed_lexedLine _ _, hread _ _⟩
  | starved ht hsplit he hs => exact List.forall_mem_cons.mpr ⟨printed_lexedLine _ _, hread _ _⟩

/-- Lines without line feeds of their own have one line feed each. -/
theorem count_newline_unlines {lines : List String} (h : ∀ line ∈ lines, Printed line) :
    (unlines lines).toList.count '\n' = lines.length := by
  induction lines with
  | nil => rfl
  | cons line lines ih =>
    obtain ⟨hfirst, hrest⟩ := List.forall_mem_cons.mp h
    have hnone : line.toList.count '\n' = 0 :=
      List.count_eq_zero_of_not_mem hfirst.newline_not_mem
    have hfeed : "\n".toList.count '\n' = 1 := by decide
    have hcons : unlines (line :: lines) = line ++ "\n" ++ unlines lines := by
      rw [unlines, List.map_cons, String.join_cons]
      rfl
    rw [hcons]
    simp only [String.toList_append, List.count_append, hnone, hfeed, ih hrest, List.length_cons]
    omega

namespace Prompt

/-- The entries for a line at the prompt are written as these lines, all of them printed. -/
theorem lineLog (calculator : Calculator) (line : String) :
    LineLog calculator.strict line ((calculator.evalLogged line).1.records.map Record.line) ∧
      ∀ entry ∈ (calculator.evalLogged line).1.records.map Record.line, Printed entry := by
  have hsame : (Calculator.new calculator.strict).strict = calculator.strict := rfl
  have hfresh := Calculator.eval_of_strict hsame line
  have hlog : EvaluationLog line _ := calculator.evaluationLog_iff.mpr rfl
  rcases calculator.run_ok_or_mistake line with ⟨final, hr, -⟩ | ⟨cause, ha, hr⟩
  · rw [Calculator.eval_of_run_ok hr] at hfresh
    rw [Calculator.evalLogged_of_run_ok hr]
    exact ⟨.answered hlog hfresh, hlog.printed⟩
  · rw [Calculator.eval_of_run_mistake hr] at hfresh
    rw [Calculator.evalLogged_of_run_mistake hr, List.map_append, List.map_singleton,
      Record.line_mistake]
    refine ⟨.mistaken hlog hfresh, fun entry he => ?_⟩
    rcases List.mem_append.mp he with he | he
    · exact hlog.printed entry he
    · rw [List.mem_singleton.mp he]
      exact printed_mistakeLine line ha

/-- A verbose conversation shows what any other shows, and has the entries of all lines
beside it. -/
theorem converse_verbose (lines : List String) (calculator : Calculator) :
    ∃ out logs, converse false calculator lines = .ok ⟨out, ""⟩ ∧
      converse true calculator lines = .ok ⟨out, unlines logs.flatten⟩ ∧
      List.Forall₂ (LineLog calculator.strict) lines logs ∧
      ∀ entry ∈ logs.flatten, Printed entry := by
  induction lines generalizing calculator with
  | nil => exact ⟨invitation, [], rfl, rfl, .nil, List.forall_mem_nil _⟩
  | cons line lines ih =>
    obtain ⟨response, hr, -⟩ := Calculator.exists_answer calculator line
    obtain ⟨out, logs, hquiet, hverbose, hlogs, hprinted⟩ := ih (calculator.eval line).2
    obtain ⟨hlog, hfirst⟩ := lineLog calculator line
    rw [Calculator.strict_eval] at hlogs
    refine ⟨invitation ++ withNewline response.text ++ out, _ :: logs, ?_, ?_,
      .cons hlog hlogs, ?_⟩
    · rw [converse, answer_of_eval hr]
      change (converse false (calculator.eval line).2 lines >>= _) = _
      rw [hquiet]
      rfl
    · rw [converse, answer_of_eval hr]
      change (converse true (calculator.eval line).2 lines >>= _) = _
      rw [hverbose, List.flatten_cons, unlines_append]
      rfl
    · intro entry he
      rw [List.flatten_cons] at he
      exact (List.mem_append.mp he).elim (hfirst entry) (hprinted entry)

end Prompt

namespace Command

/-- One more word in front makes a command verbose. -/
theorem ofSettings_verbose (settings : List String) :
    Options.ofSettings ("-v" :: settings) =
      { Options.ofSettings settings with verbose := true } := by
  simp [Options.ofSettings]

/-- An evaluation that writes its journal does so in front of the other messages. -/
theorem evaluateText_verbose {options : Options} (h : options.verbose = false) (text : String) :
    evaluateText { options with verbose := true } text =
      ⟨(evaluateText options text).exit, (evaluateText options text).out,
        unlines (((Calculator.new options.strict).runLogged text).records.map Record.line) ++
          (evaluateText options text).err⟩ := by
  simp only [evaluateText_eq, journal, journalText, h]
  cases (report (Calculator.new options.strict) options.trace text).outcome with
  | error failure => rfl
  | ok lines => exact congrArg (Outcome.mk 0 _) (String.append_empty).symm

/-- A prompt that writes its journal writes nothing else beside it. -/
theorem prompt_verbose {options : Options} (h : options.verbose = false) (input : String) :
    ∃ quiet logs, prompt options input = quiet ∧
      prompt { options with verbose := true } input =
        ⟨quiet.exit, quiet.out, unlines logs.flatten ++ quiet.err⟩ ∧
      List.Forall₂ (LineLog options.strict) (Prompt.answered input) logs ∧
      ∀ entry ∈ logs.flatten, Printed entry := by
  obtain ⟨out, logs, hquiet, hverbose, hlogs, hprinted⟩ :=
    Prompt.converse_verbose (Prompt.answered input) (Calculator.new options.strict)
  have hplain : Prompt.session false options.strict input =
      .ok ⟨withNewline Prompt.banner ++ out, ""⟩ := by
    rw [Prompt.session, hquiet]
    rfl
  have hjournal : Prompt.session true options.strict input =
      .ok ⟨withNewline Prompt.banner ++ out, unlines logs.flatten⟩ := by
    rw [Prompt.session, hverbose]
    rfl
  refine ⟨_, logs, prompt_quiet h hplain, ?_, hlogs, hprinted⟩
  simp only [prompt, hjournal, String.append_empty]

/-- Making a command verbose changes neither its exit code nor its output, and adds lines in
front of its error output. For an expression they are the lines for its evaluation. For a
prompt they are those for the answered lines, one after another, where a line that is a
mistake has one more. Whatever the texts are, each line is printed, so that there are as
many line feeds as lines. -/
theorem verbose_adds_log {settings words : List String}
    (hs : ∀ s ∈ settings, s = "--strict" ∨ s = "--trace")
    (hw : ∀ w ∈ words, IsExpressionWord w) (input : String) :
    ∃ quiet log, run (settings ++ words) input = quiet ∧
      run ("-v" :: (settings ++ words)) input =
        ⟨quiet.exit, quiet.out, unlines log ++ quiet.err⟩ ∧
      (∀ line ∈ log, Printed line) ∧ (unlines log).toList.count '\n' = log.length ∧
      (words ≠ [] → EvaluationLog (" ".intercalate words) log) ∧
      (words = [] → ∃ answered rest logs,
        Lines ((answered ++ rest).map String.toList) input.toList ∧
          (∀ line ∈ answered, ¬ SaysGoodbye line) ∧ (∀ line ∈ rest.head?, SaysGoodbye line) ∧
          List.Forall₂ (LineLog ("--strict" ∈ settings)) answered logs ∧ log = logs.flatten) := by
  have hsettings := isSetting_of_quiet hs
  have hverbose : ∀ s ∈ "-v" :: settings, IsSetting s :=
    List.forall_mem_cons.mpr ⟨isSetting_iff.mpr (by simp), hsettings⟩
  have hoff := Options.verbose_ofSettings_of_quiet hs
  by_cases hne : words = []
  · subst hne
    obtain ⟨quiet, logs, hquiet, hjournal, hlogs, hprinted⟩ := prompt_verbose hoff input
    obtain ⟨rest, hlines, hbefore, hfirst⟩ := Prompt.exists_rest_of_answered input
    rw [List.append_nil]
    refine ⟨quiet, logs.flatten, (run_settings hsettings input).trans hquiet, ?_, hprinted,
      count_newline_unlines hprinted, fun h => absurd rfl h, fun _ =>
        ⟨_, rest, logs, hlines, hbefore, hfirst, hlogs, rfl⟩⟩
    rw [run_settings hverbose input, ofSettings_verbose, hjournal]
  · have ha : ∀ s ∈ ([] : List String), IsSetting s := List.forall_mem_nil IsSetting
    have hplain := run_expression hsettings hne hw ha input
    have hjournal := run_expression hverbose hne hw ha input
    rw [List.append_nil, List.append_nil] at hplain hjournal
    have hlog : EvaluationLog (" ".intercalate words) _ :=
      (Calculator.new (Options.ofSettings settings).strict).evaluationLog_iff.mpr rfl
    refine ⟨_, _, hplain, ?_, hlog.printed, count_newline_unlines hlog.printed, fun _ => hlog,
      fun h => absurd h hne⟩
    rw [← List.cons_append, hjournal, ofSettings_verbose, evaluateText_verbose hoff]

/-- A line feed between two numbers is quoted, and both are read before a strict command
complains of them. -/
theorem verbose_adds_log_of_line_feed :
    run ["-v", "--strict", "1\n2"] "" =
      ⟨1, "", unlines ["rpn.lexer: lexed '1\\n2' into 2 tokens", "rpn.machine: read token 1 of 2",
        "rpn.machine: read token 2 of 2",
        " ? expected exactly one value on the stack, found 2"]⟩ := by
  have hs : ∀ s ∈ ["--strict"], s = "--strict" ∨ s = "--trace" :=
    List.forall_mem_singleton.mpr (Or.inl rfl)
  have hw : ∀ w ∈ ["1\n2"], IsExpressionWord w :=
    List.forall_mem_singleton.mpr (Or.inl (by decide))
  have ht : tokenize "1\n2" = .ok [.operand 1, .operand 2] := by decide +kernel
  have hplain : run ["--strict", "1\n2"] "" =
      ⟨1, "", " ? expected exactly one value on the stack, found 2\n"⟩ := by decide +kernel
  obtain ⟨quiet, log, hquiet, hverbose, -, -, hlog, -⟩ := verbose_adds_log hs hw ""
  cases hplain.symm.trans hquiet
  have hlog : EvaluationLog "1\n2" log := hlog (List.cons_ne_nil _ _)
  cases hlog with
  | unlexed h => cases ht.symm.trans h
  | complete h he =>
    cases ht.symm.trans h
    refine hverbose.trans ?_
    decide +kernel
  | @starved tokens earlier later symbol state h hsplit he hstack =>
    cases ht.symm.trans h
    have hm : Token.operator symbol ∈ [Token.operand 1, Token.operand 2] := by
      rw [hsplit]
      exact List.mem_append_right _ List.mem_cons_self
    simp at hm

end Command

end PostfixArithmetic
