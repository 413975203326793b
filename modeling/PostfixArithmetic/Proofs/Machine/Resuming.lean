import PostfixArithmetic.Proofs.Machine.Stepping

/-!
# Runs that are stopped and resumed

A run may be made step by step, watched through its history or asked for its end only.
All three go through the same states and stop for the same reason, from any start, even
one behind the last token. A state on the way holds all that the rest of the run depends
on, so the run may be left there and taken up again.
-/

namespace PostfixArithmetic.State

/-- From a state on the way, a history is what is left of the history there. -/
theorem history_of_getElem?_states {start current : State} {k : Nat}
    (h : start.history.states[k]? = some current) :
    current.history = ⟨start.history.states.drop k, start.history.failure,
      start.history.records.drop k⟩ := by
  induction k generalizing start with
  | zero =>
    obtain ⟨others, ho⟩ := exists_states_eq_cons start
    rw [ho] at h
    cases h
    rfl
  | succ k ih =>
    by_cases hf : start.isFinished = true
    · rw [history_of_finished hf] at h
      cases h
    · cases hs : start.step with
      | error failure =>
        rw [history_of_failed hf hs] at h
        cases h
      | ok later =>
        rw [history_of_step hf hs] at h ⊢
        exact ih h

/-- A run fails in its first state exactly if that state is not finished and its step
fails. -/
theorem history_eq_failed_iff {state : State} {failure : Failure} :
    state.history.states.length = 1 ∧ state.history.failure = some failure ↔
      ¬ state.isFinished = true ∧ state.step = .error failure := by
  by_cases hf : state.isFinished = true
  · rw [history_of_finished hf]
    simp [hf]
  · cases hs : state.step with
    | error cause =>
      rw [history_of_failed hf hs]
      simp [hf]
    | ok later =>
      obtain ⟨others, ho⟩ := exists_states_eq_cons later
      rw [history_of_step hf hs, ho]
      simp

/-- From a state on the way, a run ends as it does from the start. -/
theorem evaluate_of_getElem?_states {start current : State} {k : Nat}
    (h : start.history.states[k]? = some current) : current.evaluate = start.evaluate := by
  have hh := history_of_getElem?_states h
  cases he : start.evaluate with
  | error failure =>
    rw [evaluate_eq_error_iff] at he ⊢
    rw [hh]
    exact he
  | ok final =>
    have hk := (List.getElem?_eq_some_iff.mp h).1
    rw [evaluate_eq_ok_iff] at he ⊢
    rw [hh, List.getLast?_drop, if_neg (Nat.not_le.mpr hk)]
    exact he

/-- A run ends where all tokens have been read. -/
theorem isFinished_of_evaluate {start final : State} (h : start.evaluate = .ok final) :
    final.isFinished = true := by
  rw [evaluate_eq_reduceAll] at h
  cases hr : reduceAll start.stack start.input with
  | error failure =>
    rw [hr] at h
    cases h
  | ok stack =>
    rw [hr] at h
    cases h
    exact decide_eq_true (Nat.le_max_right _ _)

/-- From any start, the states of a history are those that repeated steps lead to, and it
fails behind one of them exactly if that one is not finished and its step fails so. From
each of them the history goes on as it does from the start, and writes down the same; the
run ends as it does from the start, in the same state or with the same failure. A history
without a failure has one state more than there are tokens to read. The last of them is
where the run ends: it is finished, and a run from there stays there. -/
theorem resumes_anywhere (start : State) :
    (∀ k, start.history.states[k]? = (start.after k).toOption) ∧
    (∀ k current, start.history.states[k]? = some current →
      (∀ failure, start.history.states.length = k + 1 ∧ start.history.failure = some failure ↔
        ¬ current.isFinished = true ∧ current.step = .error failure) ∧
      current.history = ⟨start.history.states.drop k, start.history.failure,
        start.history.records.drop k⟩ ∧
      current.evaluate = start.evaluate) ∧
    (∀ failure, start.evaluate = .error failure ↔ start.history.failure = some failure) ∧
    (start.history.failure = none →
      start.history.states.length = start.tokens.size - start.position + 1 ∧
      ∃ final, start.history.states.getLast? = some final ∧ start.evaluate = .ok final ∧
        final.isFinished = true ∧ final.evaluate = .ok final) := by
  refine ⟨getElem?_states_eq_after start, fun k current h => ⟨fun failure => ?_,
    history_of_getElem?_states h, evaluate_of_getElem?_states h⟩,
    fun failure => evaluate_eq_error_iff, fun hn => ⟨?_, ?_⟩⟩
  · have hk := (List.getElem?_eq_some_iff.mp h).1
    have hl : start.history.states.length = k + 1 ↔
        (start.history.states.drop k).length = 1 := by
      rw [List.length_drop]
      omega
    rw [← history_eq_failed_iff, history_of_getElem?_states h, hl]
  · rw [length_states_of_complete hn, length_input]
  · obtain ⟨others, ho⟩ := exists_states_eq_cons start
    have hl := List.getLast?_eq_some_getLast (ho ▸ List.cons_ne_nil start others)
    have he := evaluate_eq_ok_iff.mpr ⟨hn, hl⟩
    have hf := isFinished_of_evaluate he
    exact ⟨_, hl, he, hf, evaluate_of_finished hf⟩

/-- A run that lacks an operand is left behind its first token and fails from there as it
does from the start. -/
theorem resumes_before_underflow :
    (State.mk #[.operand 7, .operator "-"] 1 [7]).evaluate =
        (initial [.operand 7, .operator "-"]).evaluate ∧
      (State.mk #[.operand 7, .operator "-"] 1 [7]).history =
        ⟨[⟨#[.operand 7, .operator "-"], 1, [7]⟩],
          some (.diagnostic (.underflow "-")), []⟩ := by
  have hu : ¬ (initial [.operand 7, .operator "-"]).isFinished = true := by decide
  have hs : (initial [.operand 7, .operator "-"]).step =
      .ok ⟨#[.operand 7, .operator "-"], 1, [7]⟩ := rfl
  have hf : ¬ (State.mk #[.operand 7, .operator "-"] 1 [7]).isFinished = true := by decide
  have hn : (State.mk #[.operand 7, .operator "-"] 1 [7]).step =
      .error (.diagnostic (.underflow "-")) := rfl
  have hh := history_of_step hu hs
  rw [history_of_failed hf hn] at hh
  have h : (initial [.operand 7, .operator "-"]).history.states[1]? =
      some ⟨#[.operand 7, .operator "-"], 1, [7]⟩ := by
    rw [hh]
    rfl
  obtain ⟨-, hrest, he⟩ := (resumes_anywhere _).2.1 1 _ h
  rw [hh] at hrest
  exact ⟨he, hrest⟩

end PostfixArithmetic.State
