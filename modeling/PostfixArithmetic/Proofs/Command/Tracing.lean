import PostfixArithmetic.Proofs.Calculator.Decoding
import PostfixArithmetic.Proofs.Command.Report
import PostfixArithmetic.Proofs.Machine.Stepping

/-!
# What tracing adds

A command that traces reports what it would report without tracing. A mistake leaves
nothing else; an answer has the text, its tokens and every stack on the way in front. A
stack is a line of numbers between brackets, from which they can be read back.
-/

namespace PostfixArithmetic

/-- The marks in a stack line that belong to no number. -/
def stackMarks : List Char := ['[', ',', ']']

/-- The numbers that a stack line shows, or nothing if one of its pieces is no numeral. -/
def readStackLine? (line : String) : Option (List Float) :=
  readAll? (String.ofList (line.toList.filter (· ∉ stackMarks)))

/-- Without the marks, numbers that are joined with commas are joined with spaces. -/
theorem filter_intercalate_commas (values : List Float) :
    (", ".intercalate (values.map Written.number)).toList.filter (· ∉ stackMarks) =
      (" ".intercalate (values.map Written.number)).toList := by
  have hnumber : ∀ x, (Written.number x).toList.filter (· ∉ stackMarks) =
      (Written.number x).toList := by
    intro x
    refine List.filter_eq_self.mpr fun c hc => decide_eq_true fun hm => ?_
    rw [Written.number, String.toList_ofList] at hc
    have hmark : c = '[' ∨ c = ',' ∨ c = ']' := by simpa [stackMarks] using hm
    have hwritten := Written.characters_subset x hc
    rcases hmark with rfl | rfl | rfl
    · exact absurd hwritten (by decide)
    · exact absurd hwritten (by decide)
    · exact absurd hwritten (by decide)
  induction values with
  | nil => rfl
  | cons x values ih =>
    cases values with
    | nil => simp only [List.map_cons, List.map_nil, String.intercalate_singleton, hnumber]
    | cons y values =>
      have hcomma : ", ".toList.filter (· ∉ stackMarks) = " ".toList := by decide
      rw [List.map_cons, List.map_cons, String.intercalate_cons_cons,
        String.intercalate_cons_cons, ← List.map_cons]
      simp only [String.toList_append, List.filter_append, hnumber, hcomma, ih]

/-- The values of a stack can be read off its line. -/
theorem readStackLine?_stackLine (values : List Float) :
    readStackLine? (Trace.stackLine values) = some values := by
  have hopen : "[".toList.filter (· ∉ stackMarks) = [] := by decide
  have hclose : "]".toList.filter (· ∉ stackMarks) = [] := by decide
  rw [readStackLine?, Trace.stackLine, String.toList_append, String.toList_append,
    List.filter_append, List.filter_append, hopen, hclose, filter_intercalate_commas,
    List.nil_append, List.append_nil, String.ofList_toList, Written.readAll?_intercalate]

/-- So can the values of several stacks, line by line. -/
theorem mapM_readStackLine? (snapshots : List (List Float)) :
    (snapshots.map Trace.stackLine).mapM readStackLine? = some snapshots := by
  have hread : readStackLine? ∘ Trace.stackLine = pure := funext readStackLine?_stackLine
  rw [List.mapM_map, hread, List.mapM_pure, List.map_id']
  rfl

/-- Without the words for tracing, settings set the other options as before. -/
theorem Options.ofSettings_filter (settings : List String) :
    ofSettings (settings.filter (· ≠ "--trace")) =
      { ofSettings settings with trace := false } := by
  simp [ofSettings, List.mem_filter]

/-- The stacks of a run that has read all tokens are those after each number of steps,
from no values up to those of the final state. -/
theorem State.stacks_of_run {tokens : List Token} {final : State}
    (hf : (initial tokens).history.failure = none)
    (hl : (initial tokens).history.states.getLast? = some final) :
    ∃ snapshots, snapshots = (initial tokens).history.states.map values ∧
      snapshots.length = tokens.length + 1 ∧
      (∀ k stack, snapshots[k]? = some stack →
        ∃ state, (initial tokens).after k = .ok state ∧ stack = state.values) ∧
      snapshots.head? = some [] ∧ snapshots.IsChain Follows ∧
      snapshots.getLast? = some final.values := by
  refine ⟨_, rfl, ?_, fun k stack hk => ?_, ?_, isChain_values_history _, ?_⟩
  · rw [List.length_map, length_states_of_complete hf, input_initial]
  · rw [List.getElem?_map] at hk
    obtain ⟨state, hs, rfl⟩ := Option.map_eq_some_iff.mp hk
    exact ⟨state, after_of_getElem?_states hs, rfl⟩
  · obtain ⟨others, ho⟩ := exists_states_eq_cons (initial tokens)
    rw [ho]
    rfl
  · rw [List.getLast?_map, hl]
    rfl

namespace Command

/-- Tracing changes neither the exit code nor the error output of a command with an
expression. After a mistake there is no output, traced or not. Otherwise the traced
output is the text, its tokens and the stacks, one line for each number of steps, and
then the output of the command that does not trace. A stack line has the values between
brackets, and they can be read off it. The first stack is empty, each later one follows
from the one before it, and the last holds the values of the answer. -/
theorem tracing_adds_history {before words after : List String}
    (hb : ∀ s ∈ before, IsSetting s) (hne : words ≠ []) (hw : ∀ w ∈ words, IsExpressionWord w)
    (ha : ∀ s ∈ after, IsSetting s) (ht : "--trace" ∈ before ++ after) (input : String) :
    ∃ traced plain, run (before ++ words ++ after) input = traced ∧
      run (before.filter (· ≠ "--trace") ++ words ++ after.filter (· ≠ "--trace")) input =
        plain ∧
      traced.exit = plain.exit ∧ traced.err = plain.err ∧
      ((∃ cause,
          (Calculator.new ("--strict" ∈ before ++ after)).run (" ".intercalate words) =
              .error (.diagnostic cause) ∧
            traced.out = "" ∧ plain.out = "") ∨
        ∃ (final : State) (tokens : List Token) (snapshots : List (List Float))
            (lines : List String),
          (Calculator.new ("--strict" ∈ before ++ after)).run (" ".intercalate words) =
              .ok final ∧
            tokenize (" ".intercalate words) = .ok tokens ∧
            traced.out =
              String.join ((["Input:", " ".intercalate words, "Tokens:",
                " ".intercalate (tokens.map fun token => token.kind ++ ":" ++ token.text),
                "Stacks:"] ++ lines).map fun line => line ++ "\n") ++ plain.out ∧
            lines = snapshots.map (fun values =>
              "[" ++ ", ".intercalate (values.map Written.number) ++ "]") ∧
            lines.mapM readStackLine? = some snapshots ∧
            snapshots.length = tokens.length + 1 ∧
            (∀ k stack, snapshots[k]? = some stack →
              ∃ state, (State.initial tokens).after k = .ok state ∧ stack = state.values) ∧
            snapshots.head? = some [] ∧ snapshots.IsChain Follows ∧
            snapshots.getLast? = some final.values ∧
            plain.out = " ".intercalate (final.values.map Written.number) ++ " ok" ++ "\n") := by
  have hkept : ∀ {settings : List String}, (∀ s ∈ settings, IsSetting s) →
      ∀ s ∈ settings.filter (· ≠ "--trace"), IsSetting s := fun h s hs =>
    h s (List.mem_of_mem_filter hs)
  have htraced := run_expression hb hne hw ha input
  have hplain := run_expression (hkept hb) hne hw (hkept ha) input
  rw [← List.filter_append, Options.ofSettings_filter] at hplain
  refine ⟨_, _, rfl, rfl, ?_⟩
  rw [htraced, hplain]
  have hon : (Options.ofSettings (before ++ after)).trace = true := decide_eq_true ht
  rcases Calculator.run_ok_or_mistake (Calculator.new ("--strict" ∈ before ++ after))
    (" ".intercalate words) with ⟨final, hr, -⟩ | ⟨cause, -, hr⟩
  · obtain ⟨tokens, htokens, hf, hl, htrace⟩ := Calculator.trace_of_run_ok hr
    obtain ⟨snapshots, hshown, hlength, hsteps, hfirst, hchain, hlast⟩ := State.stacks_of_run hf hl
    rw [evaluateText_of_trace (Options.ofSettings (before ++ after)) htrace hon,
      evaluateText_of_run_ok { Options.ofSettings (before ++ after) with trace := false } hr rfl]
    refine ⟨rfl, rfl, Or.inr ⟨final, tokens, snapshots, snapshots.map Trace.stackLine, hr, htokens,
      ?_, rfl, mapM_readStackLine? snapshots, hlength, hsteps, hfirst, hchain, hlast, rfl⟩⟩
    rw [hshown, List.map_map]
    rfl
  · rw [evaluateText_of_run_mistake (Options.ofSettings (before ++ after)) hr,
      evaluateText_of_run_mistake { Options.ofSettings (before ++ after) with trace := false } hr]
    exact ⟨rfl, rfl, Or.inl ⟨cause, hr, rfl, rfl⟩⟩

/-- A traced and verbose difference: four stacks, the last of which holds the answer. -/
theorem tracing_adds_history_of_difference :
    (run ["--trace", "1 2", "-", "-v"] "").err = (run ["1 2", "-", "-v"] "").err ∧
      (run ["--trace", "1 2", "-", "-v"] "").out =
        "Input:\n1 2 -\nTokens:\nOPERAND:1.0 OPERAND:2.0 OPERATOR:-\nStacks:\n" ++
          "[]\n[1.0]\n[1.0, 2.0]\n[-1.0]\n" ++ "-1.0 ok\n" := by
  have hb : ∀ s ∈ ["--trace"], IsSetting s := by unfold IsSetting; simp
  have hw : ∀ w ∈ ["1 2", "-"], IsExpressionWord w :=
    List.forall_mem_cons.mpr ⟨Or.inl (by decide),
      List.forall_mem_singleton.mpr (Or.inr (Or.inl rfl))⟩
  have ha : ∀ s ∈ ["-v"], IsSetting s := by unfold IsSetting; simp
  have ht : tokenize "1 2 -" = .ok [.operand 1, .operand 2, .operator "-"] := by decide +kernel
  have hr : (Calculator.new false).run "1 2 -" =
      .ok ⟨#[.operand 1, .operand 2, .operator "-"], 3, [-1]⟩ := by decide +kernel
  have hfirst : (State.initial [.operand 1, .operand 2, .operator "-"]).after 1 =
      .ok ⟨#[.operand 1, .operand 2, .operator "-"], 1, [1]⟩ := rfl
  have hsecond : (State.initial [.operand 1, .operand 2, .operator "-"]).after 2 =
      .ok ⟨#[.operand 1, .operand 2, .operator "-"], 2, [2, 1]⟩ := rfl
  obtain ⟨traced, plain, rfl, hplain, -, herr, ho⟩ :=
    tracing_adds_history hb (List.cons_ne_nil _ _) hw ha (by decide) ""
  have hfilter : run ["1 2", "-", "-v"] "" = plain := hplain
  refine ⟨by rw [hfilter]; exact herr, ?_⟩
  rcases ho with ⟨cause, he, -⟩ | ⟨final, tokens, snapshots, lines, hrun, htokens, hout, hlines, -,
    hlength, hsteps, hempty, -, hlast, hanswer⟩
  · cases hr.symm.trans he
  · cases hr.symm.trans hrun
    cases ht.symm.trans htokens
    match snapshots, hlength with
    | [start, first, second, last], _ =>
      cases hempty
      cases hlast
      obtain ⟨state, hs, rfl⟩ := hsteps 1 first rfl
      cases hfirst.symm.trans hs
      obtain ⟨state, hs, rfl⟩ := hsteps 2 second rfl
      cases hsecond.symm.trans hs
      rw [hlines, hanswer] at hout
      refine hout.trans ?_
      decide +kernel

end Command

end PostfixArithmetic
