import PostfixArithmetic.Proofs.Command.Lines
import PostfixArithmetic.Proofs.Command.Report

/-!
# The transcript of a conversation

At the prompt every line up to the first goodbye is answered as by a calculator that has
seen no other line. The answers are single lines, so the transcript has one line for the
banner and one for each answer, and ends in an invitation.
-/

namespace PostfixArithmetic

namespace Prompt

/-- What is written from the first invitation on, if these are the responses. -/
def exchange (responses : List Response) : String :=
  String.join (responses.map fun response => invitation ++ (response.text ++ "\n")) ++ invitation

/-- The responses are those of a calculator that has seen no other text. -/
def RespondsAfresh (strict : Bool) (lines : List String) (responses : List Response) : Prop :=
  List.Forall₂ (fun line response => ((Calculator.new strict).eval line).1 = .ok response)
    lines responses

/-- The first response comes before the others. -/
theorem exchange_cons (response : Response) (responses : List Response) :
    exchange (response :: responses) =
      invitation ++ withNewline response.text ++ exchange responses := by
  rw [exchange, List.map_cons, String.join_cons, String.append_assoc]
  rfl

/-- A line is answered by the response to it, with what is shown of the journal. -/
theorem answer_of_eval {calculator : Calculator} {line : String} {response : Response}
    (h : (calculator.eval line).1 = .ok response) (verbose : Bool) :
    answer verbose calculator line =
      .ok (⟨withNewline response.text, journalText verbose (calculator.evalLogged line).1.records⟩,
        (calculator.eval line).2) := by
  have ho : (calculator.evalLogged line).1.outcome = .ok response := h
  rw [answer]
  simp only [ho]
  rfl

/-- A conversation answers every line as if it were the first. -/
theorem converse_quiet (lines : List String) (calculator : Calculator) :
    ∃ responses, RespondsAfresh calculator.strict lines responses ∧
      (∀ response ∈ responses, Printed response.text) ∧
      converse false calculator lines = .ok ⟨exchange responses, ""⟩ := by
  induction lines generalizing calculator with
  | nil => exact ⟨[], .nil, List.forall_mem_nil _, rfl⟩
  | cons line lines ih =>
    obtain ⟨response, hr, hp⟩ := Calculator.exists_answer calculator line
    obtain ⟨responses, ha, hall, hc⟩ := ih (calculator.eval line).2
    rw [Calculator.strict_eval] at ha
    have hsame : (Calculator.new calculator.strict).strict = calculator.strict := rfl
    have hfresh := (Calculator.eval_of_strict hsame line).trans hr
    refine ⟨response :: responses, .cons hfresh ha, List.forall_mem_cons.mpr ⟨hp, hall⟩, ?_⟩
    rw [converse, answer_of_eval hr, exchange_cons]
    change (converse false (calculator.eval line).2 lines >>= _) = _
    rw [hc]
    rfl

/-- The transcript of a prompt without a journal. -/
theorem session_quiet (strict : Bool) (input : String) :
    ∃ responses, RespondsAfresh strict (answered input) responses ∧
      (∀ response ∈ responses, Printed response.text) ∧
      session false strict input = .ok ⟨banner ++ "\n" ++ exchange responses, ""⟩ := by
  obtain ⟨responses, ha, hp, hc⟩ := converse_quiet (answered input) (Calculator.new strict)
  refine ⟨responses, ha, hp, ?_⟩
  rw [session, hc]
  rfl

/-- An input is the answered lines and, from the first goodbye on, the others. -/
theorem exists_rest_of_answered (input : String) :
    ∃ rest, Lines ((answered input ++ rest).map String.toList) input.toList ∧
      (∀ line ∈ answered input, ¬ SaysGoodbye line) ∧ ∀ line ∈ rest.head?, SaysGoodbye line := by
  have hall : ((splitLines input.toList).map String.ofList).map String.toList =
      splitLines input.toList := by
    have hid : String.toList ∘ String.ofList = id := funext fun line => String.toList_ofList
    rw [List.map_map, hid, List.map_id]
  refine ⟨((splitLines input.toList).map String.ofList).dropWhile (!isFarewell ·), ?_, ?_, ?_⟩
  · rw [answered, List.takeWhile_append_dropWhile, hall]
    exact splitLines_eq_iff.mp rfl
  · intro line hl hs
    have hn := List.mem_takeWhile_imp hl
    rw [(isFarewell_iff line).mpr hs] at hn
    cases hn
  · intro line hl
    have hn := List.head?_dropWhile_not (!isFarewell ·)
      ((splitLines input.toList).map String.ofList)
    rw [hl] at hn
    exact (isFarewell_iff line).mp (by simpa using hn)

/-- An exchange has a line feed for each response. -/
theorem count_newline_exchange {responses : List Response}
    (h : ∀ response ∈ responses, Printed response.text) :
    (exchange responses).toList.count '\n' = responses.length := by
  induction responses with
  | nil => rfl
  | cons response responses ih =>
    obtain ⟨hfirst, hrest⟩ := List.forall_mem_cons.mp h
    have hnone : response.text.toList.count '\n' = 0 :=
      List.count_eq_zero_of_not_mem hfirst.newline_not_mem
    rw [exchange_cons, withNewline]
    have hinvitation : invitation.toList.count '\n' = 0 := by decide
    have hfeed : "\n".toList.count '\n' = 1 := by decide
    simp only [String.toList_append, List.count_append, hnone, hinvitation, hfeed, ih hrest,
      List.length_cons]
    omega

end Prompt

namespace Command

open Prompt

/-- Without a journal, a prompt shows the transcript and nothing else. -/
theorem prompt_quiet {options : Options} {input out : String} (hv : options.verbose = false)
    (h : session false options.strict input = .ok ⟨out, ""⟩) :
    prompt options input = ⟨0, out, ""⟩ := by
  rw [prompt, hv, h]

/-- With settings for strictness and tracing and no expression, the command answers the
lines of its input up to the first goodbye. It exits with 0 and writes nothing but the
banner, an invitation and an answer for each of these lines, and one more invitation. An
answer is that of a calculator which has seen no other line, and it is a single line, so
there is one line feed more than there are lines answered. -/
theorem prompt_transcript {settings : List String}
    (hs : ∀ s ∈ settings, s = "--strict" ∨ s = "--trace") (input : String) :
    ∃ (answered rest : List String) (responses : List Response),
      Lines ((answered ++ rest).map String.toList) input.toList ∧
      (∀ line ∈ answered, ¬ SaysGoodbye line) ∧ (∀ line ∈ rest.head?, SaysGoodbye line) ∧
      List.Forall₂ (fun line response =>
        ((Calculator.new ("--strict" ∈ settings)).eval line).1 = .ok response) answered responses ∧
      run settings input =
        ⟨0, banner ++ "\n" ++ (String.join (responses.map fun response =>
          invitation ++ (response.text ++ "\n")) ++ invitation), ""⟩ ∧
      (∀ response ∈ responses, '\n' ∉ response.text.toList) ∧
      (run settings input).out.toList.count '\n' = answered.length + 1 := by
  obtain ⟨responses, ha, hp, hc⟩ := session_quiet ("--strict" ∈ settings) input
  obtain ⟨rest, hlines, hbefore, hfirst⟩ := exists_rest_of_answered input
  have hrun := (run_settings (isSetting_of_quiet hs) input).trans
    (prompt_quiet (Options.verbose_ofSettings_of_quiet hs) hc)
  refine ⟨answered input, rest, responses, hlines, hbefore, hfirst, ha, hrun,
    fun response hr => (hp response hr).newline_not_mem, ?_⟩
  have hbanner : (banner ++ "\n").toList.count '\n' = 1 := by decide
  rw [hrun, String.toList_append, List.count_append, hbanner, count_newline_exchange hp,
    List.Forall₂.length_eq ha, Nat.add_comm]

/-- Two values are a mistake for a strict calculator, and nothing behind the goodbye is
answered. -/
theorem prompt_transcript_of_pair :
    run ["--strict", "--trace"] "1 2\n bYe \n3" =
      ⟨0, "Type \"BYE\" or input an end of file (Ctrl+D) to quit.\n" ++
        "> " ++ " ? expected exactly one value on the stack, found 2\n" ++ "> ", ""⟩ := by
  have hs : ∀ s ∈ ["--strict", "--trace"], s = "--strict" ∨ s = "--trace" := by simp
  have he : ((Calculator.new true).eval "1 2").1 = .ok (.mistake (.unbalanced [1, 2])) := by
    decide +kernel
  obtain ⟨answered, rest, responses, hl, hbefore, hfirst, ha, hrun, -⟩ :=
    prompt_transcript hs "1 2\n bYe \n3"
  have hl := splitLines_eq_iff.mpr hl
  have hlines : answered ++ rest = ["1 2", " bYe ", "3"] :=
    (List.map_injective_iff.mpr fun _ _ => String.toList_inj.mp) hl.symm
  have hanswered : answered = ["1 2"] := by
    match answered, hlines with
    | [], hr =>
      have hg := hfirst "1 2" (by rw [← List.nil_append rest, hr]; rfl)
      exact absurd ((isFarewell_iff _).mpr hg) (by decide)
    | [line], hr => rw [(List.cons.inj hr).1]
    | _ :: line :: _, hr =>
      have hline : line = " bYe " := (List.cons.inj (List.cons.inj hr).2).1
      have hn := hbefore line (by simp)
      exact absurd ((isFarewell_iff line).mp (hline ▸ by decide)) hn
  subst hanswered
  cases ha with
  | cons hr hnone =>
    cases hnone
    cases he.symm.trans hr
    rw [hrun]
    decide +kernel

end Command

end PostfixArithmetic
