import Mathlib.Order.Nat
import PostfixArithmetic.Proofs.Machine.Reduction

/-!
# The depth of the stack and where a run stops

Every operand makes the stack one deeper and every other token makes it one less
deep, whatever the numbers are. Counting tokens therefore tells the depth at each
position, the first position where a run cannot go on and the failure it has
there: too few operands come first, a symbol without an operation second.
-/

namespace PostfixArithmetic

namespace Token

/-- The operands among some tokens minus all other tokens. -/
def balance (tokens : List Token) : Int :=
  (tokens.countP (·.isOperand) : Int) - tokens.countP (!·.isOperand)

/-- A token with the number of an operand forgotten. -/
def shape : Token → Option Token
  | operand _ => none
  | token => some token

/-- Whether a machine of the given depth cannot get past the token at an index:
it is no operand, and there are too few operands for it or its text is none of the four
symbols. -/
def StuckAt (depth : Int) (tokens : List Token) (index : Nat) : Prop :=
  ∃ token, tokens[index]? = some token ∧ token.isOperand = false ∧
    (depth + balance (tokens.take index) < 2 ∨ token.text ∉ ["+", "-", "*", "/"])

/-- The balance of no tokens is zero. -/
@[simp]
theorem balance_nil : balance [] = 0 := rfl

/-- The balance of an operand alone is one. -/
theorem balance_operand {token : Token} (h : token.isOperand = true) : balance [token] = 1 := by
  simp [balance, h]

/-- The balance of any other token alone is minus one. -/
theorem balance_other {token : Token} (h : token.isOperand = false) :
    balance [token] = -1 := by
  simp [balance, h]

/-- Balances add up. -/
theorem balance_append (a b : List Token) : balance (a ++ b) = balance a + balance b := by
  simp only [balance, List.countP_append]
  omega

/-- The balance of a list is that of its first token and of the others. -/
theorem balance_cons (token : Token) (tokens : List Token) :
    balance (token :: tokens) = balance [token] + balance tokens :=
  balance_append [token] tokens

/-- Tokens of the same shape are operands together. -/
theorem isOperand_of_shape {a b : Token} (h : a.shape = b.shape) :
    a.isOperand = b.isOperand := by
  cases a <;> cases b <;> first | rfl | cases h

/-- The shape of a token other than an operand is the token. -/
theorem shape_eq_some {token : Token} (h : token.isOperand = false) :
    token.shape = some token := by
  cases token with
  | operand value => cases h
  | operator symbol => rfl
  | other kind text => rfl

/-- Tokens of the same shape other than operands are the same. -/
theorem eq_of_shape {a b : Token} (h : a.shape = b.shape) (ha : a.isOperand = false) :
    a = b := by
  have hb : b.isOperand = false := by rw [← isOperand_of_shape h, ha]
  rw [shape_eq_some ha, shape_eq_some hb] at h
  exact Option.some.inj h

/-- The balance depends on the shapes alone. -/
theorem balance_of_shape {a b : List Token} (h : a.map shape = b.map shape) :
    balance a = balance b := by
  induction a generalizing b with
  | nil =>
    rw [List.map_nil, eq_comm, List.map_eq_nil_iff] at h
    rw [h]
  | cons x xs ih =>
    cases b with
    | nil => cases h
    | cons y ys =>
      obtain ⟨hx, hxs⟩ := List.cons.inj h
      have hh : balance [x] = balance [y] := by
        simp only [balance, List.countP_cons, List.countP_nil, isOperand_of_shape hx]
      rw [balance_cons x, balance_cons y, hh, ih hxs]

end Token

namespace State

open Token

/-- The failure of a machine of the given depth at a symbol that it cannot apply. -/
def blame (depth : Int) (symbol : String) : Failure :=
  if depth < 2 then .diagnostic (.underflow symbol) else .unknownOperator symbol

/-- The depth of the stack when the token at an index is due. -/
def depthAt (state : State) (index : Nat) : Int :=
  state.stack.length + balance ((state.tokens.toList.take index).drop state.position)

/-- Whether a run cannot get past the token at an index that is still to be read. -/
def StuckAt (state : State) (index : Nat) : Prop :=
  state.position ≤ index ∧ ∃ token, state.tokens[index]? = some token ∧
    token.isOperand = false ∧
      (state.depthAt index < 2 ∨ token.text ∉ ["+", "-", "*", "/"])

/-- One token changes the depth by its balance. -/
theorem length_reduce {stack later : List Float} {token : Token}
    (h : reduce stack token = .ok later) :
    (later.length : Int) = stack.length + balance [token] := by
  cases ht : token.isOperand with
  | true =>
    rw [balance_operand ht]
    cases token with
    | operand value =>
      cases h
      rw [List.length_cons]
      omega
    | operator symbol => cases ht
    | other kind text => cases ht
  | false =>
    rw [reduce_of_not_operand ht] at h
    rw [balance_other ht]
    match stack with
    | [] => cases h
    | [_] => cases h
    | right :: left :: below =>
      cases ho : Operation.ofSymbol? token.text with
      | none =>
        rw [operate_of_unknown (by simp) ho] at h
        cases h
      | some operation =>
        rw [operate_of_known ho] at h
        cases h
        simp only [List.length_cons]
        omega

/-- A reduction changes the depth by the balance of its tokens. -/
theorem length_reduceAll {stack later : List Float} {tokens : List Token}
    (h : reduceAll stack tokens = .ok later) :
    (later.length : Int) = stack.length + balance tokens := by
  induction tokens generalizing stack with
  | nil =>
    cases h
    rw [balance_nil]
    omega
  | cons token tokens ih =>
    cases hr : reduce stack token with
    | error failure =>
      rw [reduceAll_cons_of_error hr] at h
      cases h
    | ok next =>
      rw [reduceAll_cons_of_ok hr] at h
      have hl := length_reduce hr
      have ht := ih h
      rw [balance_cons]
      omega

/-- A token that cannot be applied fails with the blame for it. -/
theorem reduce_of_stuck {stack : List Float} {token : Token} (ht : token.isOperand = false)
    (h : (stack.length : Int) < 2 ∨ token.text ∉ ["+", "-", "*", "/"]) :
    reduce stack token = .error (blame stack.length token.text) := by
  rw [reduce_of_not_operand ht, blame]
  by_cases hs : (stack.length : Int) < 2
  · rw [if_pos hs, operate_of_short (by omega)]
  · have hu := Operation.ofSymbol?_eq_none_iff.mpr (h.resolve_left hs)
    rw [if_neg hs, operate_of_unknown (by omega) hu]

/-- Any other token is reduced. -/
theorem exists_reduce {stack : List Float} {token : Token}
    (h : token.isOperand = false →
      2 ≤ (stack.length : Int) ∧ token.text ∈ ["+", "-", "*", "/"]) :
    ∃ later, reduce stack token = .ok later := by
  cases ht : token.isOperand with
  | true =>
    cases token with
    | operand value => exact ⟨value :: stack, rfl⟩
    | operator symbol => cases ht
    | other kind text => cases ht
  | false =>
    obtain ⟨hs, hk⟩ := h ht
    obtain ⟨operation, ho⟩ := Option.ne_none_iff_exists'.mp fun hu =>
      Operation.ofSymbol?_eq_none_iff.mp hu hk
    match stack, hs with
    | right :: left :: below, _ =>
      exact ⟨_, by rw [reduce_of_not_operand ht, operate_of_known ho]⟩

/-- As long as the machine is not stuck, the beginning of the input is reduced. -/
theorem exists_reduceAll_take {stack : List Float} {tokens : List Token} {k : Nat}
    (h : ∀ j < k, ¬ Token.StuckAt stack.length tokens j) :
    ∃ later, reduceAll stack (tokens.take k) = .ok later := by
  induction k with
  | zero => exact ⟨stack, rfl⟩
  | succ k ih =>
    obtain ⟨middle, hm⟩ := ih fun j hj => h j (by omega)
    have hl := length_reduceAll hm
    rw [List.take_add_one, reduceAll_append_of_ok hm]
    cases ht : tokens[k]? with
    | none => exact ⟨middle, rfl⟩
    | some token =>
      have hn : token.isOperand = false →
          2 ≤ (middle.length : Int) ∧ token.text ∈ ["+", "-", "*", "/"] := by
        intro ho
        have hk := h k (by omega)
        by_contra hc
        refine hk ⟨token, ht, ho, ?_⟩
        rw [← hl]
        by_cases hs : (middle.length : Int) < 2
        · exact Or.inl hs
        · exact Or.inr fun hu => hc ⟨by omega, hu⟩
      obtain ⟨later, hr⟩ := exists_reduce hn
      exact ⟨later, by rw [Option.toList_some, reduceAll_cons_of_ok hr, reduceAll_nil]⟩

/-- The first place where the machine is stuck decides the failure. -/
theorem reduceAll_take_of_stuck {stack : List Float} {tokens : List Token} {k : Nat}
    {token : Token} (h : IsLeast {j | Token.StuckAt stack.length tokens j} k)
    (ht : tokens[k]? = some token) :
    reduceAll stack (tokens.take (k + 1)) =
      .error (blame (stack.length + balance (tokens.take k)) token.text) := by
  obtain ⟨⟨found, hf, ho, hs⟩, hk⟩ := h
  rw [ht] at hf
  cases hf
  obtain ⟨middle, hm⟩ := exists_reduceAll_take fun j hj hc => Nat.not_lt.mpr (hk hc) hj
  have hl := length_reduceAll hm
  rw [← hl] at hs ⊢
  rw [List.take_add_one, reduceAll_append_of_ok hm, ht, Option.toList_some,
    reduceAll_cons_of_error (reduce_of_stuck ho hs)]

/-- A failure of the beginning of the input is the failure of all. -/
theorem reduceAll_of_take_error {stack : List Float} {tokens : List Token} {k : Nat}
    {failure : Failure} (h : reduceAll stack (tokens.take k) = .error failure) :
    reduceAll stack tokens = .error failure := by
  rw [← List.take_append_drop k tokens, reduceAll_append_of_error h]

/-- Positions of the whole sequence count from the position of the machine. -/
theorem stuckAt_add (state : State) (k : Nat) :
    state.StuckAt (state.position + k) ↔ Token.StuckAt state.stack.length state.input k := by
  have hd : state.input.take k =
      (state.tokens.toList.take (state.position + k)).drop state.position := by
    rw [input, List.take_drop, Nat.add_comm]
  have ht : state.input[k]? = state.tokens[state.position + k]? := by
    rw [input, List.getElem?_drop, Array.getElem?_toList]
  simp only [StuckAt, Token.StuckAt, depthAt, hd, ht]
  exact and_iff_right (Nat.le_add_right _ _)

/-- Up to a position, the tokens of the input have the balance that the depth
there is told from. -/
theorem depthAt_add (state : State) (k : Nat) :
    state.depthAt (state.position + k) =
      state.stack.length + balance (state.input.take k) := by
  rw [depthAt, input, List.take_drop, Nat.add_comm]

/-- The states of a history follow one another position by position, over the same
tokens, and the depth of their stacks is told by the tokens read so far. -/
theorem state_of_history {state later : State} {k : Nat}
    (h : state.history.states[k]? = some later) :
    later.position = state.position + k ∧ later.tokens = state.tokens ∧
      (later.stack.length : Int) = state.depthAt later.position := by
  rw [getElem?_states] at h
  split at h
  · split at h
    · cases h
    · rename_i stack hs
      cases h
      have hl := length_reduceAll hs
      exact ⟨rfl, rfl, by rw [hl, depthAt_add]⟩
  · cases h

/-- A run that is never stuck reads all its input. -/
theorem history_of_not_stuck {state : State} (h : ∀ i, ¬ state.StuckAt i) :
    state.history.failure = none ∧
      state.history.states.length = state.tokens.size - state.position + 1 := by
  have hn : ∀ j < state.input.length, ¬ Token.StuckAt state.stack.length state.input j :=
    fun j _ hj => h _ ((stuckAt_add state j).mpr hj)
  obtain ⟨final, hf⟩ := exists_reduceAll_take hn
  have hlast : state.history.states[state.input.length]? =
      some ⟨state.tokens, state.position + state.input.length, final⟩ := by
    rw [getElem?_states, if_pos (Nat.le_refl _), hf]
  have hnone : state.history.states[state.input.length + 1]? = none := by
    rw [getElem?_states, if_neg (by omega)]
  have hlt := (List.getElem?_eq_some_iff.mp hlast).1
  have hle := List.getElem?_eq_none_iff.mp hnone
  rw [List.take_length] at hf
  rw [failure_history, hf]
  rw [length_input] at hlt hle
  exact ⟨rfl, by omega⟩

/-- A run ends at the first index where it is stuck: it has gone through one state
for each position up to there, and fails with the blame for the symbol there. -/
theorem history_of_stuck {state : State} {i : Nat} {token : Token}
    (h : IsLeast {j | state.StuckAt j} i) (ht : state.tokens[i]? = some token) :
    state.history.failure = some (blame (state.depthAt i) token.text) ∧
      state.history.states.length = i - state.position + 1 := by
  obtain ⟨hi, hfirst⟩ := h
  obtain ⟨k, rfl⟩ := Nat.exists_eq_add_of_le hi.1
  have hk : IsLeast {j | Token.StuckAt state.stack.length state.input j} k := by
    refine ⟨(stuckAt_add state k).mp hi, fun j hj => ?_⟩
    have hle := hfirst ((stuckAt_add state j).mpr hj)
    omega
  have hti : state.input[k]? = some token := by
    rw [input, List.getElem?_drop, Array.getElem?_toList, ht]
  have herror := reduceAll_take_of_stuck hk hti
  have hbound := (List.getElem?_eq_some_iff.mp hti).1
  obtain ⟨stack, hs⟩ := exists_reduceAll_take fun j hj hc => Nat.not_lt.mpr (hk.2 hc) hj
  have hlast : state.history.states[k]? =
      some ⟨state.tokens, state.position + k, stack⟩ := by
    rw [getElem?_states, if_pos (by omega), hs]
  have hnone : state.history.states[k + 1]? = none := by
    rw [getElem?_states, if_pos (by omega), herror]
  have hlt := (List.getElem?_eq_some_iff.mp hlast).1
  have hle := List.getElem?_eq_none_iff.mp hnone
  rw [failure_history, reduceAll_of_take_error herror, depthAt_add]
  exact ⟨rfl, by omega⟩

/-- Two machines at the same position and of the same depth, whose tokens differ in
the numbers of operands only, have the same depths. -/
theorem depthAt_of_shape {a b : State} (hp : a.position = b.position)
    (hs : a.stack.length = b.stack.length)
    (ht : a.tokens.toList.map shape = b.tokens.toList.map shape) (i : Nat) :
    a.depthAt i = b.depthAt i := by
  have hm : ((a.tokens.toList.take i).drop a.position).map shape =
      ((b.tokens.toList.take i).drop b.position).map shape := by
    rw [List.map_drop, List.map_take, ht, hp, List.map_drop, List.map_take]
  rw [depthAt, depthAt, balance_of_shape hm, hs]

/-- They are stuck at the same indices. -/
theorem stuckAt_of_shape {a b : State} (hp : a.position = b.position)
    (hs : a.stack.length = b.stack.length)
    (ht : a.tokens.toList.map shape = b.tokens.toList.map shape) {i : Nat}
    (h : a.StuckAt i) : b.StuckAt i := by
  obtain ⟨hi, token, hf, ho, hk⟩ := h
  have hm := congrArg (·[i]?) ht
  simp only [List.getElem?_map, Array.getElem?_toList, hf, Option.map_some] at hm
  obtain ⟨found, hb, he⟩ := Option.map_eq_some_iff.mp hm.symm
  have hsame := eq_of_shape he.symm ho
  cases hsame
  rw [depthAt_of_shape hp hs ht] at hk
  exact ⟨hp ▸ hi, token, hb, ho, hk⟩

/-- Two such machines come to the same failure, through stacks of the same depths. -/
theorem history_of_shape {a b : State} (hp : a.position = b.position)
    (hs : a.stack.length = b.stack.length)
    (ht : a.tokens.toList.map shape = b.tokens.toList.map shape) :
    a.history.failure = b.history.failure ∧
      a.history.states.map (·.stack.length) = b.history.states.map (·.stack.length) := by
  have hiff : ∀ i, a.StuckAt i ↔ b.StuckAt i := fun i =>
    ⟨stuckAt_of_shape hp hs ht, stuckAt_of_shape hp.symm hs.symm ht.symm⟩
  have hset : {i | a.StuckAt i} = {i | b.StuckAt i} := Set.ext hiff
  have hends : a.history.failure = b.history.failure ∧
      a.history.states.length = b.history.states.length := by
    by_cases hc : ∃ i, b.StuckAt i
    · classical
      have hb := Nat.isLeast_find hc
      have ha : IsLeast {i | a.StuckAt i} (Nat.find hc) := hset ▸ hb
      obtain ⟨_, token, htb, ho, _⟩ := hb.1
      obtain ⟨_, found, hta, hoa, _⟩ := ha.1
      have hm := congrArg (·[Nat.find hc]?) ht
      simp only [List.getElem?_map, Array.getElem?_toList, hta, htb, Option.map_some,
        Option.some.injEq] at hm
      cases eq_of_shape hm hoa
      obtain ⟨hfa, hla⟩ := history_of_stuck ha hta
      obtain ⟨hfb, hlb⟩ := history_of_stuck hb htb
      exact ⟨by rw [hfa, hfb, depthAt_of_shape hp hs ht], by rw [hla, hlb, hp]⟩
    · have hb : ∀ i, ¬ b.StuckAt i := fun i hi => hc ⟨i, hi⟩
      obtain ⟨hfa, hla⟩ := history_of_not_stuck fun i hi => hb i ((hiff i).mp hi)
      obtain ⟨hfb, hlb⟩ := history_of_not_stuck hb
      have hsize := congrArg List.length ht
      rw [List.length_map, List.length_map, Array.length_toList, Array.length_toList] at hsize
      exact ⟨by rw [hfa, hfb], by rw [hla, hlb, hp, hsize]⟩
  refine ⟨hends.1, List.ext_getElem ?_ fun k hka hkb => ?_⟩
  · rw [List.length_map, List.length_map, hends.2]
  · rw [List.length_map] at hka hkb
    obtain ⟨hpa, _, hla⟩ := state_of_history (List.getElem?_eq_getElem hka)
    obtain ⟨hpb, _, hlb⟩ := state_of_history (List.getElem?_eq_getElem hkb)
    rw [hpa, depthAt_of_shape hp hs ht, hp, ← hpb, ← hlb] at hla
    rw [List.getElem_map, List.getElem_map]
    exact Int.ofNat_inj.mp hla

/-- A run goes on until it is stuck. The states that it goes through stand at
successive positions of the same tokens and hold operands only, as many as the
depth at the position says. It fails exactly if it is stuck somewhere, and then
at the first such index: too few operands are blamed before a missing operation.
The numbers of the operands have no say in any of this. -/
theorem history_until_stuck (state : State) :
    (∀ k later, state.history.states[k]? = some later →
      later.position = state.position + k ∧ later.tokens = state.tokens ∧
        (∀ token ∈ later.operands, token.isOperand = true) ∧
        (later.operands.length : Int) = state.depthAt later.position) ∧
    (state.history.failure ≠ none ↔ ∃ i, state.StuckAt i) ∧
    (∀ i, IsLeast {j | state.StuckAt j} i →
      ∃ token, state.tokens[i]? = some token ∧
        state.history.states.length = i - state.position + 1 ∧
        state.history.failure = some (blame (state.depthAt i) token.text) ∧
        state.evaluate = .error (blame (state.depthAt i) token.text)) ∧
    ((∀ i, ¬ state.StuckAt i) →
      state.history.states.length = state.tokens.size - state.position + 1) ∧
    ∀ other : State, other.position = state.position →
      other.stack.length = state.stack.length →
      other.tokens.toList.map shape = state.tokens.toList.map shape →
        (∀ i, other.depthAt i = state.depthAt i ∧ (other.StuckAt i ↔ state.StuckAt i)) ∧
        other.history.failure = state.history.failure ∧
        other.history.states.map (·.stack.length) =
          state.history.states.map (·.stack.length) := by
  have hstuck : ∀ i, IsLeast {j | state.StuckAt j} i →
      ∃ token, state.tokens[i]? = some token ∧
        state.history.states.length = i - state.position + 1 ∧
        state.history.failure = some (blame (state.depthAt i) token.text) := by
    intro i hi
    obtain ⟨_, token, ht, _⟩ := hi.1
    obtain ⟨hf, hl⟩ := history_of_stuck hi ht
    exact ⟨token, ht, hl, hf⟩
  refine ⟨?_, ⟨?_, ?_⟩, ?_, ?_, ?_⟩
  · intro k later h
    obtain ⟨hp, ht, hl⟩ := state_of_history h
    refine ⟨hp, ht, ?_, ?_⟩
    · intro token hm
      obtain ⟨value, _, rfl⟩ := List.mem_map.mp hm
      rfl
    · rw [operands, values, List.length_map, List.length_reverse, hl]
  · intro hf
    by_contra hc
    exact hf (history_of_not_stuck fun i hi => hc ⟨i, hi⟩).1
  · intro hc
    classical
    obtain ⟨token, _, _, hf⟩ := hstuck _ (Nat.isLeast_find hc)
    rw [hf]
    exact Option.some_ne_none _
  · intro i hi
    obtain ⟨token, ht, hl, hf⟩ := hstuck i hi
    exact ⟨token, ht, hl, hf, by rw [evaluate_eq_history, hf]⟩
  · intro h
    exact (history_of_not_stuck h).2
  · intro other hp hs ht
    refine ⟨fun i => ⟨depthAt_of_shape hp hs ht i, ?_⟩, history_of_shape hp hs ht⟩
    exact ⟨stuckAt_of_shape hp hs ht, stuckAt_of_shape hp.symm hs.symm ht.symm⟩

/-- A machine that starts behind an operator, on one operand, takes the next one and
stops at a raw token, which has no operation. -/
theorem stops_at_raw_token :
    (State.mk #[.operator "+", .operand 1, .other "RAW" "%"] 1 [2]).history.states.length = 2 ∧
      (State.mk #[.operator "+", .operand 1, .other "RAW" "%"] 1 [2]).history.failure =
        some (.unknownOperator "%") := by
  have hs : State.StuckAt ⟨#[.operator "+", .operand 1, .other "RAW" "%"], 1, [2]⟩ 2 :=
    ⟨by decide, .other "RAW" "%", rfl, rfl, Or.inr (by decide)⟩
  have hi : IsLeast {j | State.StuckAt ⟨#[.operator "+", .operand 1, .other "RAW" "%"], 1, [2]⟩ j}
      2 := by
    refine ⟨hs, fun j hj => ?_⟩
    obtain ⟨hp, token, ht, ho, _⟩ := hj
    by_contra hc
    have hj : j = 1 := by
      change 1 ≤ j at hp
      omega
    subst hj
    cases ht
    cases ho
  obtain ⟨token, ht, hl, hf, _⟩ := (history_until_stuck _).2.2.1 2 hi
  cases ht
  exact ⟨hl, hf⟩

end State

end PostfixArithmetic
