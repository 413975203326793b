import Mathlib.Tactic.SplitIfs
import PostfixArithmetic.Proofs.Machine.Reduction

/-!
# The grammar of postfix expressions

An expression is a tree of operations over numbers. Written in postfix form, the
two operands come before their operation, and several expressions may follow one
another. A machine that collects trees in place of numbers undoes this writing,
so the trees of a token sequence are unique; the machine on numbers succeeds when
it does and leaves the values of its trees.
-/

namespace PostfixArithmetic

/-- Whether a token is an operand or the operator of an operation. -/
def Token.IsArithmetic (token : Token) : Prop :=
  (∃ value, token = .operand value) ∨
    ∃ operation : Operation, token = .operator operation.symbol

/-- Only an operation's own symbol finds it. -/
theorem Operation.symbol_of_ofSymbol? {symbol : String} {operation : Operation}
    (h : ofSymbol? symbol = some operation) : operation.symbol = symbol := by
  unfold ofSymbol? at h
  split_ifs at h with hadd hsub hmul hdiv
  · cases h
    exact hadd.symm
  · cases h
    exact hsub.symm
  · cases h
    exact hmul.symm
  · cases h
    exact hdiv.symm

/-- A tree of operations over numbers. -/
inductive Expression where
  /-- A number. -/
  | number (value : Float)
  /-- An operation on the values of two expressions. -/
  | apply (operation : Operation) (left right : Expression)

namespace Expression

/-- The value of an expression: every operation is applied to the values of its
left and of its right operand. -/
def value : Expression → Float
  | number value => value
  | apply operation left right => operation.apply left.value right.value

/-- The postfix form of an expression: left operand, right operand, operator. -/
def tokens : Expression → List Token
  | number value => [.operand value]
  | apply operation left right =>
    left.tokens ++ right.tokens ++ [.operator operation.symbol]

/-- The postfix forms of several expressions, one after another. -/
def tokensAll (forest : List Expression) : List Token :=
  forest.flatMap tokens

/-- Postfix forms hold operands and operators only. -/
theorem isArithmetic_of_mem_tokens {tree : Expression} {token : Token}
    (h : token ∈ tree.tokens) : token.IsArithmetic := by
  induction tree with
  | number value => exact Or.inl ⟨value, List.mem_singleton.mp h⟩
  | apply operation left right ihl ihr =>
    rw [tokens, List.mem_append, List.mem_append, List.mem_singleton] at h
    rcases h with (hl | hr) | ho
    · exact ihl hl
    · exact ihr hr
    · exact Or.inr ⟨operation, ho⟩

/-- So do several of them. -/
theorem isArithmetic_of_mem_tokensAll (forest : List Expression) :
    ∀ token ∈ tokensAll forest, token.IsArithmetic := by
  intro token h
  obtain ⟨tree, _, ht⟩ := List.mem_flatMap.mp h
  exact isArithmetic_of_mem_tokens ht

/-- The expressions collected so far, the latest first, after another token. There
are none for an operator that lacks operands and for tokens out of the grammar. -/
def collect (trees : List Expression) : Token → Option (List Expression)
  | .operand value => some (number value :: trees)
  | .operator symbol =>
    match trees with
    | right :: left :: below =>
      (Operation.ofSymbol? symbol).map fun operation => apply operation left right :: below
    | _ => none
  | .other _ _ => none

/-- The expressions collected from several tokens, read from left to right. -/
def collectAll (trees : List Expression) (tokens : List Token) : Option (List Expression) :=
  tokens.foldlM collect trees

/-- Behind the first token collecting goes on with the new expressions. -/
theorem collectAll_cons (trees : List Expression) (token : Token) (tokens : List Token) :
    collectAll trees (token :: tokens) =
      (collect trees token).bind fun later => collectAll later tokens :=
  List.foldlM_cons

/-- An operator joins the two latest expressions. -/
theorem collect_operator (operation : Operation) (left right : Expression)
    (below : List Expression) :
    collect (right :: left :: below) (.operator operation.symbol) =
      some (apply operation left right :: below) := by
  rw [collect, Operation.ofSymbol?_symbol, Option.map_some]

/-- The postfix form of an expression collects it, whatever comes before and after. -/
theorem collectAll_tokens_append (tree : Expression) (trees : List Expression)
    (later : List Token) :
    collectAll trees (tree.tokens ++ later) = collectAll (tree :: trees) later := by
  induction tree generalizing trees later with
  | number value => rfl
  | apply operation left right ihl ihr =>
    rw [tokens, List.append_assoc, List.append_assoc, ihl, ihr, List.singleton_append,
      collectAll_cons, collect_operator]
    rfl

/-- The postfix forms of several expressions collect exactly these. -/
theorem collectAll_tokensAll (forest trees : List Expression) :
    collectAll trees (tokensAll forest) = some (forest.reverse ++ trees) := by
  induction forest generalizing trees with
  | nil => rfl
  | cons tree forest ih =>
    rw [tokensAll, List.flatMap_cons, collectAll_tokens_append, ← tokensAll, ih,
      List.reverse_cons, List.append_assoc, List.singleton_append]

/-- A token sequence is the postfix form of at most one list of expressions. -/
theorem tokensAll_injective {a b : List Expression} (h : tokensAll a = tokensAll b) : a = b := by
  have ha := collectAll_tokensAll a []
  have hb := collectAll_tokensAll b []
  rw [h, hb, List.append_nil, List.append_nil] at ha
  exact List.reverse_inj.mp (Option.some.inj ha).symm

/-- Collecting a token adds it to the postfix forms of the expressions. -/
theorem tokensAll_of_collect {trees later : List Expression} {token : Token}
    (h : collect trees token = some later) :
    tokensAll later.reverse = tokensAll trees.reverse ++ [token] := by
  cases token with
  | operand value =>
    cases h
    rw [List.reverse_cons, tokensAll, List.flatMap_append, List.flatMap_singleton]
    rfl
  | operator symbol =>
    match trees with
    | [] => cases h
    | [_] => cases h
    | right :: left :: below =>
      obtain ⟨operation, hs, rfl⟩ := Option.map_eq_some_iff.mp h
      rw [← Operation.symbol_of_ofSymbol? hs]
      simp only [tokensAll, List.reverse_cons, List.flatMap_append, List.flatMap_singleton,
        tokens, List.append_assoc]
  | other kind text => cases h

/-- Collecting several tokens adds them to the postfix forms of the expressions. -/
theorem tokensAll_of_collectAll {trees later : List Expression} {read : List Token}
    (h : collectAll trees read = some later) :
    tokensAll later.reverse = tokensAll trees.reverse ++ read := by
  induction read generalizing trees with
  | nil =>
    cases h
    rw [List.append_nil]
  | cons token read ih =>
    rw [collectAll_cons] at h
    obtain ⟨middle, hm, hl⟩ := Option.bind_eq_some_iff.mp h
    rw [ih hl, tokensAll_of_collect hm, List.append_assoc, List.singleton_append]

/-- On the values of expressions the machine does what collecting does on the
expressions themselves. -/
theorem reduce_map_value {token : Token} (h : token.IsArithmetic) (trees : List Expression) :
    (State.reduce (trees.map value) token).toOption =
      (collect trees token).map (·.map value) := by
  rcases h with ⟨number, rfl⟩ | ⟨operation, rfl⟩
  · rfl
  · match trees with
    | [] => rfl
    | [_] => rfl
    | right :: left :: below =>
      rw [collect_operator, State.reduce, List.map_cons, List.map_cons,
        State.operate_of_known (Operation.ofSymbol?_symbol operation)]
      rfl

/-- The machine on numbers follows the collection of expressions to its end. -/
theorem reduceAll_map_value {read : List Token} (h : ∀ token ∈ read, token.IsArithmetic)
    (trees : List Expression) :
    (State.reduceAll (trees.map value) read).toOption =
      (collectAll trees read).map (·.map value) := by
  induction read generalizing trees with
  | nil => rfl
  | cons token read ih =>
    obtain ⟨ht, hread⟩ := List.forall_mem_cons.mp h
    have hr := reduce_map_value ht trees
    rw [collectAll_cons]
    cases hc : State.reduce (trees.map value) token with
    | error failure =>
      rw [hc] at hr
      rw [State.reduceAll_cons_of_error hc, Option.map_eq_none_iff.mp hr.symm]
      rfl
    | ok stack =>
      rw [hc] at hr
      obtain ⟨later, hl, hs⟩ := Option.map_eq_some_iff.mp hr.symm
      rw [State.reduceAll_cons_of_ok hc, hl, ← hs]
      exact ih hread later

/-- The machine succeeds on the postfix forms of expressions, and only on them. -/
theorem reduceAll_eq_ok_iff {read : List Token} (h : ∀ token ∈ read, token.IsArithmetic)
    (stack : List Float) :
    State.reduceAll [] read = .ok stack ↔
      ∃ forest, read = tokensAll forest ∧ stack = (forest.map value).reverse := by
  have hv := reduceAll_map_value h []
  constructor
  · intro hs
    rw [List.map_nil, hs] at hv
    obtain ⟨trees, ht, hm⟩ := Option.map_eq_some_iff.mp hv.symm
    refine ⟨trees.reverse, (tokensAll_of_collectAll ht).symm, ?_⟩
    rw [List.map_reverse, List.reverse_reverse, hm]
  · rintro ⟨forest, rfl, rfl⟩
    rw [collectAll_tokensAll, List.append_nil, Option.map_some, List.map_nil,
      List.map_reverse] at hv
    cases hc : State.reduceAll [] (tokensAll forest) with
    | error failure =>
      rw [hc] at hv
      cases hv
    | ok later =>
      rw [hc] at hv
      exact congrArg Except.ok (Option.some.inj hv)

/-- The postfix forms of expressions leave the values of the expressions in order. -/
theorem evaluate_tokensAll (forest : List Expression) :
    ∃ final, (State.initial (tokensAll forest)).evaluate = .ok final ∧
      final.values = forest.map value := by
  have hr := (reduceAll_eq_ok_iff (isArithmetic_of_mem_tokensAll forest) _).mpr ⟨forest, rfl, rfl⟩
  exact ⟨_, State.evaluate_initial_of_ok hr, List.reverse_reverse _⟩

/-- Evaluation accepts exactly the concatenated postfix forms of expressions. There
is one way to read a token sequence as such, and the values left are those of the
expressions in order. Asking for the result afterwards gives the value of a single
expression, and reports all values if there are none or several. -/
theorem evaluate_iff_forest {read : List Token} (h : ∀ token ∈ read, token.IsArithmetic) :
    ((∃ final, (State.initial read).evaluate = .ok final) ↔
      ∃ forest, read = tokensAll forest) ∧
    (∀ forest, read = tokensAll forest →
      (∀ other, read = tokensAll other → other = forest) ∧
      ∃ final, (State.initial read).evaluate = .ok final ∧
        final.values = forest.map value ∧
        (∀ tree, forest = [tree] → final.result = .ok tree.value) ∧
        (forest.length ≠ 1 →
          final.result = .error (.diagnostic (.unbalanced (forest.map value))))) ∧
    ∀ number, (State.initial read).evaluate >>= State.result = .ok number ↔
      ∃ tree : Expression, read = tree.tokens ∧ number = tree.value := by
  have hiff : (∃ final, (State.initial read).evaluate = .ok final) ↔
      ∃ forest, read = tokensAll forest := by
    constructor
    · rintro ⟨final, hf⟩
      cases hr : State.reduceAll [] read with
      | error failure =>
        rw [State.evaluate_initial_of_error hr] at hf
        cases hf
      | ok stack =>
        obtain ⟨forest, hread, _⟩ := (reduceAll_eq_ok_iff h stack).mp hr
        exact ⟨forest, hread⟩
    · rintro ⟨forest, rfl⟩
      obtain ⟨final, hf, _⟩ := evaluate_tokensAll forest
      exact ⟨final, hf⟩
  refine ⟨hiff, ?_, fun number => ⟨?_, ?_⟩⟩
  · rintro forest rfl
    obtain ⟨final, hf, hv⟩ := evaluate_tokensAll forest
    refine ⟨fun other ho => (tokensAll_injective ho).symm, final, hf, hv, ?_, ?_⟩
    · rintro tree rfl
      exact (final.result_eq_ok_iff _).mpr hv
    · intro hl
      rw [← List.length_map (f := value), ← hv] at hl
      rw [State.result_of_length_ne_one hl, hv]
  · intro hn
    cases hf : (State.initial read).evaluate with
    | error failure =>
      rw [hf] at hn
      cases hn
    | ok final =>
      obtain ⟨forest, rfl⟩ := hiff.mp ⟨final, hf⟩
      obtain ⟨same, hs, hv⟩ := evaluate_tokensAll forest
      rw [hf] at hs hn
      cases hs
      rw [(final.result_eq_ok_iff number).mp hn] at hv
      match forest, hv with
      | [tree], hv => exact ⟨tree, List.append_nil _, (List.cons.inj hv).1⟩
  · rintro ⟨tree, rfl, rfl⟩
    obtain ⟨final, hf, hv⟩ := evaluate_tokensAll [tree]
    rw [tokensAll, List.flatMap_singleton] at hf
    rw [hf]
    exact (final.result_eq_ok_iff _).mpr hv

/-- A difference and a product behind it are two expressions. -/
theorem evaluate_difference_and_product :
    (State.initial [.operand 5, .operand 3, .operator "-", .operand 2, .operand 4,
      .operator "*"]).evaluate >>= State.result =
        .error (.diagnostic (.unbalanced [5 - 3, 2 * 4])) := by
  have hf : [Token.operand 5, .operand 3, .operator "-", .operand 2, .operand 4,
      .operator "*"] = tokensAll
        [apply .sub (number 5) (number 3), apply .mul (number 2) (number 4)] := rfl
  have ha : ∀ token ∈ [Token.operand 5, .operand 3, .operator "-", .operand 2, .operand 4,
      .operator "*"], token.IsArithmetic := by
    rw [hf]
    exact isArithmetic_of_mem_tokensAll _
  obtain ⟨_, final, he, _, _, hr⟩ := (evaluate_iff_forest ha).2.1 _ hf
  rw [he]
  exact hr (by simp)

end Expression

end PostfixArithmetic
