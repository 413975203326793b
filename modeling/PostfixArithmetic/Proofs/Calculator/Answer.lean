import PostfixArithmetic.Proofs.Calculator.Outcome
import PostfixArithmetic.Proofs.Text.Unquoting

/-!
# Answers

An answer is told from the text and the strictness of the calculator. It is a final
state or one of three mistakes, and a single printed line in any case. Strictness only
turns a success with another number of values than one into a mistake.
-/

namespace PostfixArithmetic

/-- The mistakes that a text can make. -/
inductive Diagnostic.Arises : Diagnostic → Prop where
  /-- A foreign character. -/
  | unrecognized (i : Nat) (c : Char) : Arises (.unrecognized i (String.singleton c))
  /-- An operator without its operands. -/
  | underflow (operation : Operation) : Arises (.underflow operation.symbol)
  /-- Another number of values than one. -/
  | unbalanced (stack : List Float) : Arises (.unbalanced stack)

/-- The message of such a mistake is printed. -/
theorem Diagnostic.Arises.printed {cause : Diagnostic} (h : cause.Arises) :
    Printed cause.message := by
  have hliteral : ∀ text : String, text.toList.all isPrintable = true → Printed text :=
    fun text hall => List.all_eq_true.mp hall
  cases h with
  | unrecognized i c => exact printed_unrecognized i _
  | underflow operation =>
    have hfirst : Printed "stack underflow for operator " := hliteral _ (by decide)
    have hsymbol : Printed operation.symbol := by
      cases operation <;> exact hliteral _ (by decide)
    exact hfirst.append hsymbol
  | unbalanced stack =>
    have hfirst : Printed "expected exactly one value on the stack, found " :=
      hliteral _ (by decide)
    exact hfirst.append (printed_repr stack.length)

namespace Response

/-- Values are shown on a printed line. -/
theorem printed_ok (values : List Float) : Printed (Response.ok values).text := by
  have hspace : Printed " " := List.forall_mem_singleton.mpr rfl
  have hok : Printed " ok" := List.all_eq_true.mp (by decide)
  refine Printed.append (hspace.intercalate fun t ht => ?_) hok
  obtain ⟨x, -, rfl⟩ := List.mem_map.mp ht
  exact Written.printed_number x

/-- A mistake is shown on a printed line. -/
theorem printed_mistake {cause : Diagnostic} (h : cause.Arises) :
    Printed (Response.mistake cause).text := by
  have hmark : Printed " ? " := List.all_eq_true.mp (by decide)
  exact hmark.append h.printed

end Response

namespace Calculator

/-- A run ends in a finished state or in one of the mistakes of a text. -/
theorem run_ok_or_mistake (calculator : Calculator) (text : String) :
    (∃ final : State, calculator.run text = .ok final ∧ final.isFinished = true) ∨
      ∃ cause : Diagnostic, cause.Arises ∧ calculator.run text = .error (.diagnostic cause) := by
  rcases rejectsForeign text.toList with hn | ⟨i, c, -, -, ho⟩
  · obtain ⟨tokens, ht, hs⟩ := exists_tokens hn
    rcases hs [] with ⟨i, c, ⟨⟨d, hd, hsign, -⟩, -⟩, hc, he⟩ | ⟨-, stack, hstack, -⟩
    · rw [hd] at hc
      cases hc
      obtain ⟨operation, hsymbol⟩ := exists_operation_of_sign hsign
      rw [← hsymbol] at he
      exact Or.inr ⟨_, .underflow operation, run_of_reduceAll_error (ht 0) he calculator⟩
    · obtain ⟨final, -, hf, -, -, hr⟩ := run_of_reduceAll_ok (ht 0) hstack calculator
      by_cases hstrict : calculator.strict = true ∧ final.values.length ≠ 1
      · obtain ⟨hs, hl⟩ := hstrict
        exact Or.inr ⟨_, .unbalanced final.values, hr.trans (check_of_length_ne_one hs hl)⟩
      · have hl : calculator.strict = true → final.values.length = 1 := fun hs =>
          by_contra fun hc => hstrict ⟨hs, hc⟩
        exact Or.inl ⟨final, hr.trans (check_of_length hl), hf⟩
  · exact Or.inr ⟨_, .unrecognized i c, run_of_foreign ho calculator⟩

/-- A run that ends in a state has read all tokens. -/
theorem isFinished_of_run_ok {calculator : Calculator} {text : String} {final : State}
    (h : calculator.run text = .ok final) : final.isFinished = true := by
  rcases run_ok_or_mistake calculator text with ⟨found, hf, hfinished⟩ | ⟨cause, -, hf⟩
  · cases h.symm.trans hf
    exact hfinished
  · cases h.symm.trans hf

/-- Every text is answered, on one printed line. -/
theorem exists_answer (calculator : Calculator) (text : String) :
    ∃ response, (calculator.eval text).1 = .ok response ∧ Printed response.text := by
  rcases run_ok_or_mistake calculator text with ⟨final, hr, -⟩ | ⟨cause, ha, hr⟩
  · exact ⟨final.response, by rw [eval_of_run_ok hr], Response.printed_ok final.values⟩
  · exact ⟨.mistake cause, by rw [eval_of_run_mistake hr], Response.printed_mistake ha⟩

/-- Calculators of the same strictness run a text alike. -/
theorem run_of_strict {a b : Calculator} (h : a.strict = b.strict) (text : String) :
    a.run text = b.run text := by
  have hcheck : a.check = b.check := by
    funext state
    rw [check, check, h]
  rw [run_eq, run_eq, hcheck]

/-- They give the same answer. -/
theorem eval_of_strict {a b : Calculator} (h : a.strict = b.strict) (text : String) :
    (a.eval text).1 = (b.eval text).1 := by
  have hr := run_of_strict h text
  rcases run_ok_or_mistake b text with ⟨final, hb, -⟩ | ⟨cause, -, hb⟩
  · rw [eval_of_run_ok hb, eval_of_run_ok (hr.trans hb)]
  · rw [eval_of_run_mistake hb, eval_of_run_mistake (hr.trans hb)]

/-- Any run is the run of a calculator that is not strict, checked. -/
theorem run_eq_check (calculator : Calculator) (text : String) :
    calculator.run text = (new false).run text >>= calculator.check := by
  have hlenient : (new false).check = .ok := funext (check_of_lenient rfl)
  rw [run_eq, run_eq, hlenient]
  cases tokenize text with
  | error failure => rfl
  | ok tokens =>
    change (State.initial tokens).evaluate >>= _ = ((State.initial tokens).evaluate >>= _) >>= _
    cases (State.initial tokens).evaluate with
    | error failure => rfl
    | ok final => rfl

/-- A strict calculator gives the same answer as one that is not, unless that answer is
another number of values than one: then the values are the mistake. -/
theorem eval_strict (text : String) :
    ∃ lenient, ((new false).eval text).1 = .ok lenient ∧
      (((new true).eval text).1 = .ok lenient ∧
          (∀ values, lenient = .ok values → values.length = 1) ∨
        ∃ values, lenient = .ok values ∧ values.length ≠ 1 ∧
          ((new true).eval text).1 = .ok (.mistake (.unbalanced values))) := by
  have hc := run_eq_check (new true) text
  rcases run_ok_or_mistake (new false) text with ⟨final, hr, -⟩ | ⟨cause, -, hr⟩
  · refine ⟨final.response, by rw [eval_of_run_ok hr], ?_⟩
    rw [hr] at hc
    change (new true).run text = (new true).check final at hc
    by_cases hl : final.values.length = 1
    · have hs : (new true).run text = .ok final := hc.trans (check_of_length fun _ => hl)
      refine Or.inl ⟨by rw [eval_of_run_ok hs], fun values hv => ?_⟩
      cases hv
      exact hl
    · have hs : (new true).run text = .error (.diagnostic (.unbalanced final.values)) :=
        hc.trans (check_of_length_ne_one rfl hl)
      exact Or.inr ⟨final.values, rfl, hl, by rw [eval_of_run_mistake hs]⟩
  · have hs : (new true).run text = .error (.diagnostic cause) := by
      rw [hc, hr]
      rfl
    refine ⟨.mistake cause, by rw [eval_of_run_mistake hr], Or.inl ⟨?_, fun values hv => ?_⟩⟩
    · rw [eval_of_run_mistake hs]
    · cases hv

end Calculator

end PostfixArithmetic
