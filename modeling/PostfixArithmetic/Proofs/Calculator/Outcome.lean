import PostfixArithmetic.Calculator
import PostfixArithmetic.Proofs.Lexer.Balance
import PostfixArithmetic.Proofs.Machine.Reduction

/-!
# What a calculator answers

The answer to a text is told from the text alone. A foreign character comes first,
wherever it stands, then a sign without two operands, then, for a strict calculator,
any other number of values than one. There is nothing else that can go wrong: the
tokens of a text are operators with an operation and numbers.
-/

namespace PostfixArithmetic

/-- A text is rejected at the first of its foreign characters. -/
def RejectsForeign (text : List Char) : Prop :=
  (∀ j, ¬ ForeignAt text j) ∨
    ∃ i c, IsLeast {j | ForeignAt text j} i ∧ text[i]? = some c ∧
      ∀ position : Nat, (scan Rule.standard position text).outcome =
        .error (.diagnostic (.unrecognized ((position + i : Nat) : Int) (String.singleton c)))

/-- From the tokens of a text the machine either fails at the first sign that is
starved above the stack, or it leaves as many values as the text counts for. -/
def Settles (text : List Char) (tokens : List Token) (stack : List Float) : Prop :=
  (∃ i c, IsLeast {j | StarvedAt stack.length text j} i ∧ text[i]? = some c ∧
    State.reduceAll stack tokens = .error (.diagnostic (.underflow (String.singleton c)))) ∨
  (∀ j, ¬ StarvedAt stack.length text j) ∧
    ∃ later, State.reduceAll stack tokens = .ok later ∧
      (later.length : Int) = stack.length + textBalance text

/-- A piece without foreign characters passes the rejection on. -/
theorem RejectsForeign.append {piece rest : List Char} {tokens : List Token}
    (hf : ∀ c ∈ piece, isForeign c = false)
    (hs : ∀ position, scan Rule.standard position (piece ++ rest) =
      (scan Rule.standard (position + piece.length) rest).prepend tokens)
    (h : RejectsForeign rest) : RejectsForeign (piece ++ rest) := by
  have hshift : Shifted (ForeignAt (piece ++ rest)) (ForeignAt rest) piece.length :=
    foreignAt_append hf
  rcases h with hn | ⟨i, c, hi, hc, ho⟩
  · exact Or.inl (hshift.forall_not_iff.mpr hn)
  · refine Or.inr ⟨piece.length + i, c, hshift.isLeast hi, ?_, fun position => ?_⟩
    · rw [getElem?_behind, hc]
    · rw [hs, Scan.prepend, ho, Nat.add_assoc]
      rfl

/-- Every text is rejected at the first of its foreign characters. -/
theorem rejectsForeign (text : List Char) : RejectsForeign text := by
  induction text using piece_induction with
  | nil =>
    refine Or.inl fun j hj => ?_
    obtain ⟨c, hc, -⟩ := hj
    cases hc
  | blank c rest hc ih =>
    have hs : ∀ position, scan Rule.standard position ([c] ++ rest) =
        (scan Rule.standard (position + [c].length) rest).prepend [] := by
      intro position
      rw [Scan.prepend_nil]
      exact scan_blank hc position rest
    exact ih.append (List.forall_mem_singleton.mpr (isForeign_of_isBlank hc)) hs
  | sign c rest hc ih =>
    have hs : ∀ position, scan Rule.standard position ([c] ++ rest) =
        (scan Rule.standard (position + [c].length) rest).prepend
          [.operator (String.singleton c)] := fun position => scan_sign hc position rest
    exact ih.append (List.forall_mem_singleton.mpr (isForeign_of_isOperatorSign hc)) hs
  | digits run rest hne hd hr ih =>
    exact ih.append (fun c hc => isForeign_of_isAsciiDigit (hd c hc)) (scan_digits hne hd hr)
  | foreign c rest hc =>
    refine Or.inr ⟨0, c, ⟨⟨c, rfl, hc⟩, fun j _ => Nat.zero_le j⟩, rfl, fun position => ?_⟩
    rw [scan_foreign hc]
    rfl

/-- A piece whose tokens are reduced passes the rest on to the new stack. -/
theorem Settles.append {piece rest : List Char} {earlier tokens : List Token}
    {stack next : List Float} (hr : State.reduceAll stack earlier = .ok next)
    (hs : Shifted (StarvedAt stack.length (piece ++ rest)) (StarvedAt next.length rest)
      piece.length)
    (hb : stack.length + textBalance (piece ++ rest) = next.length + textBalance rest)
    (h : Settles rest tokens next) : Settles (piece ++ rest) (earlier ++ tokens) stack := by
  rcases h with ⟨i, c, hi, hc, he⟩ | ⟨hn, later, hl, hlength⟩
  · refine Or.inl ⟨piece.length + i, c, hs.isLeast hi, ?_, ?_⟩
    · rw [getElem?_behind, hc]
    · rw [State.reduceAll_append_of_ok hr, he]
  · refine Or.inr ⟨hs.forall_not_iff.mpr hn, later, ?_, ?_⟩
    · rw [State.reduceAll_append_of_ok hr, hl]
    · rw [hb, hlength]

/-- A sign without two operands stops the machine. -/
theorem settles_of_short {c : Char} (h : isOperatorSign c = true) {stack : List Float}
    (hl : stack.length < 2) (rest : List Char) (tokens : List Token) :
    Settles (c :: rest) (.operator (String.singleton c) :: tokens) stack := by
  have hz : StarvedAt stack.length (c :: rest) 0 := by
    refine ⟨c, rfl, h, ?_⟩
    rw [List.take_zero, textBalance_nil]
    omega
  have he : State.reduce stack (.operator (String.singleton c)) =
      .error (.diagnostic (.underflow (String.singleton c))) :=
    State.operate_of_short hl (String.singleton c)
  exact Or.inl ⟨0, c, ⟨hz, fun j _ => Nat.zero_le j⟩, rfl, State.reduceAll_cons_of_error he tokens⟩

/-- A sign with two operands is an operation on them. -/
theorem exists_reduce_sign {c : Char} (h : isOperatorSign c = true) {stack : List Float}
    (hl : 2 ≤ stack.length) :
    ∃ next, State.reduceAll stack [.operator (String.singleton c)] = .ok next ∧
      stack.length = next.length + 1 := by
  obtain ⟨operation, ho⟩ := exists_operation_of_sign h
  have hk : Operation.ofSymbol? (String.singleton c) = some operation := by
    rw [← ho, Operation.ofSymbol?_symbol]
  match stack, hl with
  | right :: left :: below, _ =>
    have hr : State.reduce (right :: left :: below) (.operator (String.singleton c)) =
        .ok (operation.apply left right :: below) := State.operate_of_known hk left right below
    refine ⟨operation.apply left right :: below, ?_, rfl⟩
    rw [State.reduceAll_cons_of_ok hr, State.reduceAll_nil]

/-- A sign settles a text whose rest is settled. -/
theorem Settles.sign {c : Char} (h : isOperatorSign c = true) {rest : List Char}
    {tokens : List Token} (hs : ∀ stack, Settles rest tokens stack) (stack : List Float) :
    Settles (c :: rest) (.operator (String.singleton c) :: tokens) stack := by
  by_cases hl : stack.length < 2
  · exact settles_of_short h hl rest tokens
  · obtain ⟨next, hr, hn⟩ := exists_reduce_sign h (Nat.not_lt.mp hl)
    have hd : (stack.length : Int) - 1 = next.length := by omega
    have hshift : Shifted (StarvedAt stack.length ([c] ++ rest)) (StarvedAt next.length rest)
        [c].length := hd ▸ starvedAt_sign h (by omega) rest
    have hb : (stack.length : Int) + textBalance ([c] ++ rest) =
        next.length + textBalance rest := by
      rw [List.singleton_append, textBalance_sign h]
      omega
    exact Settles.append hr hshift hb (hs next)

/-- A text without foreign characters has tokens, and from any stack the machine
settles them. -/
theorem exists_tokens {text : List Char} (h : ∀ j, ¬ ForeignAt text j) :
    ∃ tokens, (∀ position, (scan Rule.standard position text).outcome = .ok tokens) ∧
      ∀ stack, Settles text tokens stack := by
  induction text using piece_induction with
  | nil =>
    refine ⟨[], fun position => by rw [scan], fun stack => Or.inr ⟨?_, stack, rfl, ?_⟩⟩
    · rintro j ⟨c, hc, -⟩
      cases hc
    · rw [textBalance_nil, Int.add_zero]
  | blank c rest hc ih =>
    have hf : ∀ d ∈ [c], isForeign d = false :=
      List.forall_mem_singleton.mpr (isForeign_of_isBlank hc)
    have hn : ∀ j, ¬ ForeignAt rest j := (foreignAt_append hf).forall_not_iff.mp h
    obtain ⟨tokens, ht, hs⟩ := ih hn
    refine ⟨tokens, fun position => by rw [scan_blank hc, ht], fun stack => ?_⟩
    have hb : (stack.length : Int) + textBalance ([c] ++ rest) =
        stack.length + textBalance rest := by
      rw [List.singleton_append, textBalance_blank hc]
    exact Settles.append (State.reduceAll_nil stack) (starvedAt_blank hc _ rest) hb (hs stack)
  | sign c rest hc ih =>
    have hf : ∀ d ∈ [c], isForeign d = false :=
      List.forall_mem_singleton.mpr (isForeign_of_isOperatorSign hc)
    have hn : ∀ j, ¬ ForeignAt rest j := (foreignAt_append hf).forall_not_iff.mp h
    obtain ⟨tokens, ht, hs⟩ := ih hn
    refine ⟨.operator (String.singleton c) :: tokens, fun position => ?_, Settles.sign hc hs⟩
    rw [scan_sign hc, Scan.prepend, ht]
    rfl
  | digits run rest hne hd hr ih =>
    have hf : ∀ c ∈ run, isForeign c = false := fun c hc => isForeign_of_isAsciiDigit (hd c hc)
    obtain ⟨tokens, ht, hs⟩ := ih ((foreignAt_append hf).forall_not_iff.mp h)
    refine ⟨.operand (Numeral.ofDigits run) :: tokens, fun position => ?_, fun stack => ?_⟩
    · rw [scan_digits hne hd hr, Scan.prepend, ht]
      rfl
    · have hshift := starvedAt_digits hne hd hr stack.length
      have hb : (stack.length : Int) + textBalance (run ++ rest) =
          (Numeral.ofDigits run :: stack).length + textBalance rest := by
        rw [textBalance_digits hne hd hr, List.length_cons]
        omega
      have hp : State.reduceAll stack [.operand (Numeral.ofDigits run)] =
          .ok (Numeral.ofDigits run :: stack) := rfl
      exact Settles.append hp hshift hb (hs _)
  | foreign c rest hc => exact absurd ⟨c, rfl, hc⟩ (h 0)

namespace Calculator

/-- A strict calculator reports all values of a state unless there is one. -/
theorem check_of_length_ne_one {calculator : Calculator} {state : State}
    (hs : calculator.strict = true) (hl : state.values.length ≠ 1) :
    calculator.check state = .error (.diagnostic (.unbalanced state.values)) := by
  rw [check, if_pos hs, State.result_of_length_ne_one hl]
  rfl

/-- A state with one value passes every check, and any state does if it is not strict. -/
theorem check_of_length {calculator : Calculator} {state : State}
    (h : calculator.strict = true → state.values.length = 1) :
    calculator.check state = .ok state := by
  by_cases hs : calculator.strict = true
  · obtain ⟨value, hv⟩ := List.length_eq_one_iff.mp (h hs)
    rw [check, if_pos hs, (state.result_eq_ok_iff value).mpr hv]
    rfl
  · exact check_of_lenient (Bool.eq_false_iff.mpr hs) state

/-- A run that ends in a state or in a mistake is answered. -/
theorem exists_response_of_run {calculator : Calculator} {text : String}
    (h : (∃ state, calculator.run text = .ok state) ∨
      ∃ cause, calculator.run text = .error (.diagnostic cause)) :
    ∃ response, (calculator.eval text).1 = .ok response := by
  rcases h with ⟨state, hr⟩ | ⟨cause, hr⟩
  · exact ⟨state.response, by rw [eval_of_run_ok hr]⟩
  · exact ⟨.mistake cause, by rw [eval_of_run_mistake hr]⟩

/-- A foreign character is reported before anything else. -/
theorem run_of_foreign {text : String} {i : Nat} {c : Char}
    (h : ∀ position : Nat, (scan Rule.standard position text.toList).outcome =
      .error (.diagnostic (.unrecognized ((position + i : Nat) : Int) (String.singleton c))))
    (calculator : Calculator) :
    calculator.run text = .error (.diagnostic (.unrecognized i (String.singleton c))) := by
  have ht := h 0
  rw [Nat.zero_add] at ht
  rw [run_eq, tokenize, tokenizeWith, ht]
  rfl

/-- A failure of the machine is the failure of the run. -/
theorem run_of_reduceAll_error {text : String} {tokens : List Token} {failure : Failure}
    (ht : tokenize text = .ok tokens) (h : State.reduceAll [] tokens = .error failure)
    (calculator : Calculator) : calculator.run text = .error failure := by
  rw [run_eq, ht]
  change (State.initial tokens).evaluate >>= calculator.check = _
  rw [State.evaluate_initial_of_error h]
  rfl

/-- The stack that the machine leaves is handed on in a finished state, to be checked. -/
theorem run_of_reduceAll_ok {text : String} {tokens : List Token} {stack : List Float}
    (ht : tokenize text = .ok tokens) (h : State.reduceAll [] tokens = .ok stack)
    (calculator : Calculator) :
    ∃ final : State, final.stack = stack ∧ final.isFinished = true ∧
      (State.initial tokens).evaluate = .ok final ∧
      calculate text = .ok final.stack.reverse ∧
      calculator.run text = calculator.check final := by
  have he := State.evaluate_initial_of_ok h
  have hf : (State.mk tokens.toArray tokens.length stack).isFinished = true :=
    decide_eq_true (Nat.le_refl _)
  refine ⟨⟨tokens.toArray, tokens.length, stack⟩, rfl, hf, he, ?_, ?_⟩
  · rw [calculate, ht]
    change (State.initial tokens).evaluate >>= _ = _
    rw [he]
    rfl
  · rw [run_eq, ht]
    change (State.initial tokens).evaluate >>= calculator.check = _
    rw [he]
    rfl

/-- A calculator does exactly one of four things with a text, and the text tells
which. The first foreign character is reported, even behind a sign that lacks
operands; else the first sign that meets fewer than two operands. Else the machine
comes to an end on the tokens of the text, as deep as the counts say. If the calculator
is strict and the numerals are not one more than the signs, all that it left is
reported, the top last; otherwise its final state comes back, finished. So a text is
always answered, and no other failure gets out. -/
theorem run_cases (calculator : Calculator) (text : String) :
    ((∃ i c, IsLeast {j | ForeignAt text.toList j} i ∧ text.toList[i]? = some c ∧
        calculator.run text =
          .error (.diagnostic (.unrecognized i (String.singleton c)))) ∨
      (∀ j, ¬ ForeignAt text.toList j) ∧
        ((∃ i c, IsLeast {j | StarvedAt 0 text.toList j} i ∧ text.toList[i]? = some c ∧
            calculator.run text = .error (.diagnostic (.underflow (String.singleton c)))) ∨
          (∀ j, ¬ StarvedAt 0 text.toList j) ∧
            ∃ (tokens : List Token) (final : State), tokenize text = .ok tokens ∧
              (State.initial tokens).evaluate = .ok final ∧
              calculate text = .ok final.stack.reverse ∧
              (final.stack.length : Int) = textBalance text.toList ∧
              (calculator.strict = true ∧ textBalance text.toList ≠ 1 ∧
                  calculator.run text =
                    .error (.diagnostic (.unbalanced final.stack.reverse)) ∨
                (calculator.strict = true → textBalance text.toList = 1) ∧
                  calculator.run text = .ok final ∧ final.isFinished = true))) ∧
    ∃ response, (calculator.eval text).1 = .ok response := by
  rcases rejectsForeign text.toList with hn | ⟨i, c, hi, hc, ho⟩
  · obtain ⟨tokens, ht, hs⟩ := exists_tokens hn
    have ht := ht 0
    rcases hs [] with ⟨i, c, hi, hc, he⟩ | ⟨hnone, stack, hstack, hl⟩
    · have hr := run_of_reduceAll_error ht he calculator
      exact ⟨Or.inr ⟨hn, Or.inl ⟨i, c, hi, hc, hr⟩⟩, exists_response_of_run (Or.inr ⟨_, hr⟩)⟩
    · obtain ⟨final, rfl, hf, he, hv, hr⟩ := run_of_reduceAll_ok ht hstack calculator
      have hd : (final.stack.length : Int) = textBalance text.toList := by
        rw [hl]
        exact Int.zero_add _
      have hlength : final.values.length = final.stack.length := List.length_reverse
      by_cases hstrict : calculator.strict = true ∧ textBalance text.toList ≠ 1
      · obtain ⟨hs, hb⟩ := hstrict
        have hr := hr.trans (check_of_length_ne_one hs (by omega))
        exact ⟨Or.inr ⟨hn, Or.inr ⟨hnone, tokens, final, ht, he, hv, hd, Or.inl ⟨hs, hb, hr⟩⟩⟩,
          exists_response_of_run (Or.inr ⟨_, hr⟩)⟩
      · have hb : calculator.strict = true → textBalance text.toList = 1 := fun hs =>
          by_contra fun hc => hstrict ⟨hs, hc⟩
        have hr := hr.trans (check_of_length fun hs => by have hone := hb hs; omega)
        exact ⟨Or.inr ⟨hn, Or.inr ⟨hnone, tokens, final, ht, he, hv, hd, Or.inr ⟨hb, hr, hf⟩⟩⟩,
          exists_response_of_run (Or.inl ⟨_, hr⟩)⟩
  · have hr := run_of_foreign ho calculator
    exact ⟨Or.inl ⟨i, c, hi, hc, hr⟩, exists_response_of_run (Or.inr ⟨_, hr⟩)⟩

/-- A strict calculator reports both values of a text without a sign, the last one on top. -/
theorem run_cases_of_two_values :
    (new true).run "1 2" = .error (.diagnostic (.unbalanced [1, 2])) ∧
      calculate "1 2" = .ok [1, 2] := by
  have ht : tokenize "1 2" = .ok [.operand 1, .operand 2] := by decide +kernel
  have he : (State.initial [.operand 1, .operand 2]).evaluate =
      .ok ⟨#[.operand 1, .operand 2], 2, [2, 1]⟩ := by decide +kernel
  have hbalance : textBalance "1 2".toList = 2 := by decide
  have hplain : ∀ c ∈ ['1', ' ', '2'], isForeign c = false ∧ isOperatorSign c = false := by
    simp only [List.forall_mem_cons]
    exact ⟨by decide, by decide, by decide, List.forall_mem_nil _⟩
  obtain ⟨hcases, -⟩ := run_cases (new true) "1 2"
  rcases hcases with ⟨i, c, ⟨⟨d, hd, hforeign⟩, -⟩, -⟩ |
    ⟨-, ⟨i, c, ⟨⟨d, hd, hsign, -⟩, -⟩, -⟩ | ⟨-, tokens, final, hk, hf, hv, -, hr⟩⟩
  · rw [(hplain d (List.mem_of_getElem? hd)).1] at hforeign
    cases hforeign
  · rw [(hplain d (List.mem_of_getElem? hd)).2] at hsign
    cases hsign
  · cases ht.symm.trans hk
    cases he.symm.trans hf
    rcases hr with ⟨-, -, hr⟩ | ⟨hone, -⟩
    · exact ⟨hr, hv⟩
    · rw [hbalance] at hone
      exact absurd (hone rfl) (by decide)

end Calculator

end PostfixArithmetic
