import PostfixArithmetic.Calculator
import PostfixArithmetic.Proofs.Lexer.Concatenation
import PostfixArithmetic.Proofs.Lexer.Rendering
import PostfixArithmetic.Proofs.Machine.Grammar
import PostfixArithmetic.Proofs.Number.Exactness

/-!
# Calculating with integers

An expression over natural numbers may be written with any zeros in front of its
numerals and any blanks between its words. The calculator reads from such a text the
same expression over the numbers nearest to its literals, and leaves the value of that
expression alone. As long as no subexpression has a value beyond `2 ^ 53` and every
division is exact, this value is the integer that the expression denotes.
-/

namespace PostfixArithmetic

/-- A tree of operations over natural numbers. -/
inductive IntegerExpression where
  /-- A natural number. -/
  | literal (n : Nat)
  /-- An operation on the values of two expressions. -/
  | apply (operation : Operation) (left right : IntegerExpression)

namespace IntegerExpression

/-- The exact value of an expression. -/
def value : IntegerExpression → Int
  | literal n => n
  | apply operation left right => operation.onIntegers left.value right.value

/-- Literals and values of subexpressions are at most `2 ^ 53`, and a divisor is not
zero and divides its dividend. -/
def IsExact : IntegerExpression → Prop
  | literal n => n ≤ 2 ^ 53
  | apply operation left right =>
    left.IsExact ∧ right.IsExact ∧ operation.IsExactOn left.value right.value ∧
      (operation.onIntegers left.value right.value).natAbs ≤ 2 ^ 53

/-- Whether an expression is exact can be computed too. -/
instance decidableIsExact : (tree : IntegerExpression) → Decidable tree.IsExact
  | literal n => inferInstanceAs (Decidable (n ≤ 2 ^ 53))
  | apply operation left right =>
    have := decidableIsExact left
    have := decidableIsExact right
    inferInstanceAs (Decidable (left.IsExact ∧ right.IsExact ∧
      operation.IsExactOn left.value right.value ∧
        (operation.onIntegers left.value right.value).natAbs ≤ 2 ^ 53))

/-- The texts of an expression: digits for a literal, and both operands before their
operation. Blanks are needed between the operands, and may stand in front of the
operation. -/
inductive Writes : IntegerExpression → List Char → Prop where
  /-- A literal is written as digits that have its value, zeros in front included. -/
  | literal {digits : List Char} (hdigits : ∀ c ∈ digits, isAsciiDigit c = true)
      (hne : digits ≠ []) : Writes (literal (digitsValue digits)) digits
  /-- An operation is written behind its operands. -/
  | apply (operation : Operation) {left right : IntegerExpression} {first second : List Char}
      (hfirst : Writes left first) (hsecond : Writes right second) {between gap : List Char}
      (hbetween : ∀ c ∈ between, isBlank c = true) (hne : between ≠ [])
      (hgap : ∀ c ∈ gap, isBlank c = true) :
    Writes (apply operation left right)
      (first ++ (between ++ (second ++ (gap ++ operation.symbol.toList))))

/-- The same expression over the numbers nearest to the literals. -/
def nearest : IntegerExpression → Expression
  | literal n => .number (BitPattern.toFloat false (Decimal.pattern ⟨n, 0⟩))
  | apply operation left right => .apply operation left.nearest right.nearest

/-- The value of an exact expression is at most `2 ^ 53`. -/
theorem natAbs_value_le {tree : IntegerExpression} (h : tree.IsExact) :
    tree.value.natAbs ≤ 2 ^ 53 := by
  cases tree with
  | literal n => exact h
  | apply operation left right => exact h.2.2.2

/-- Over the nearest numbers an exact expression has its exact value. -/
theorem isInteger_value_nearest {tree : IntegerExpression} (h : tree.IsExact) :
    IsInteger tree.nearest.value tree.value := by
  induction tree with
  | literal n => exact Decimal.isInteger_pattern h
  | apply operation left right ihl ihr =>
    obtain ⟨hl, hr, hexact, hle⟩ := h
    exact Operation.isInteger_apply (ihl hl) (ihr hr) (natAbs_value_le hl) (natAbs_value_le hr)
      hexact hle

/-- Blanks and an operator do not start with a digit. -/
theorem noDigitFirst_gap_symbol {gap : List Char} (h : ∀ c ∈ gap, isBlank c = true)
    (operation : Operation) (rest : List Char) :
    NoDigitFirst (gap ++ (operation.symbol.toList ++ rest)) := by
  by_cases hg : gap = []
  · rw [hg, List.nil_append]
    exact noDigitFirst_of_spells (.operator operation) rfl rest
  · exact noDigitFirst_of_blank h hg _

/-- A text of an expression is scanned into the postfix form over the nearest numbers. -/
theorem scan_writes {tree : IntegerExpression} {text : List Char} (h : Writes tree text)
    {rest : List Char} (hr : NoDigitFirst rest) (position : Nat) :
    scan Rule.standard position (text ++ rest) =
      (scan Rule.standard (position + text.length) rest).prepend tree.nearest.tokens := by
  induction h generalizing rest position with
  | literal hdigits hne => exact scan_digits hne hdigits hr position
  | apply operation _ _ hbetween hne hgap ihf ihs =>
    have hsymbol := noDigitFirst_gap_symbol hgap operation rest
    have hspelled : (Token.operator operation.symbol).isOperand = true → NoDigitFirst rest :=
      fun hc => by cases hc
    simp only [List.append_assoc]
    rw [ihf (noDigitFirst_of_blank hbetween hne _), scan_gap hbetween, ihs hsymbol, scan_gap hgap,
      scan_spelling (.operator operation) hspelled, Scan.prepend_prepend, Scan.prepend_prepend]
    simp only [List.length_append, Nat.add_assoc, nearest, Expression.tokens, List.append_assoc]

/-- The calculator leaves the value over the nearest numbers, and nothing else. -/
theorem calculate_writes {tree : IntegerExpression} {before body after : List Char}
    (hbefore : ∀ c ∈ before, isBlank c = true) (hbody : Writes tree body)
    (hafter : ∀ c ∈ after, isBlank c = true) :
    calculate (String.ofList (before ++ body ++ after)) = .ok [tree.nearest.value] := by
  have hend : NoDigitFirst after :=
    fun c hc => isAsciiDigit_of_isBlank (hafter c (List.mem_of_mem_head? hc))
  have hlast := scan_gap hafter (0 + before.length + body.length) []
  rw [List.append_nil, scan] at hlast
  have htokens : tokenize (String.ofList (before ++ body ++ after)) =
      .ok (Expression.tokensAll [tree.nearest]) := by
    rw [tokenize, tokenizeWith, String.toList_ofList, List.append_assoc, scan_gap hbefore,
      scan_writes hbody hend, hlast, Expression.tokensAll, List.flatMap_singleton]
    exact congrArg Except.ok (List.append_nil _)
  obtain ⟨final, hfinal, hvalues⟩ := Expression.evaluate_tokensAll [tree.nearest]
  rw [calculate, htokens]
  change (State.initial (Expression.tokensAll [tree.nearest])).evaluate >>= _ = _
  rw [hfinal]
  exact congrArg Except.ok hvalues

/-- An exact expression, written in postfix form with any blanks and zeros, leaves a
single number, and this number is the value of the expression. -/
theorem calculate_exact {tree : IntegerExpression} (h : tree.IsExact)
    {before body after : List Char} (hbefore : ∀ c ∈ before, isBlank c = true)
    (hbody : Writes tree body) (hafter : ∀ c ∈ after, isBlank c = true) :
    ∃ x, calculate (String.ofList (before ++ body ++ after)) = .ok [x] ∧
      IsInteger x tree.value :=
  ⟨_, calculate_writes hbefore hbody hafter, isInteger_value_nearest h⟩

/-- The greatest literal with zeros in front, a negative divisor behind a blank that is
not ASCII, and a zero that has a minus sign. -/
theorem calculate_quotient_and_zero :
    ∃ x, calculate " 0009007199254740992 2 4 -\u2003/ 0 7 - 0 *+\n" = .ok [x] ∧
      IsInteger x (-4503599627370496) := by
  have hspace : ∀ c ∈ [' '], isBlank c = true := List.forall_mem_singleton.mpr rfl
  have hquad : ∀ c ∈ ['\u2003'], isBlank c = true := List.forall_mem_singleton.mpr rfl
  have hline : ∀ c ∈ ['\n'], isBlank c = true := List.forall_mem_singleton.mpr rfl
  have hne : [' '] ≠ [] := List.cons_ne_nil _ _
  have htop : Writes (literal _) "0009007199254740992".toList :=
    .literal (List.all_eq_true.mp rfl) (by decide)
  have htwo : Writes (literal _) ['2'] := .literal (List.all_eq_true.mp rfl) (List.cons_ne_nil _ _)
  have hfour : Writes (literal _) ['4'] := .literal (List.all_eq_true.mp rfl) (List.cons_ne_nil _ _)
  have hseven : Writes (literal _) ['7'] :=
    .literal (List.all_eq_true.mp rfl) (List.cons_ne_nil _ _)
  have hnone : Writes (literal _) ['0'] := .literal (List.all_eq_true.mp rfl) (List.cons_ne_nil _ _)
  have hdivisor := Writes.apply .sub htwo hfour hspace hne hspace
  have hquotient := Writes.apply .div htop hdivisor hspace hne hquad
  have hnegative := Writes.apply .sub hnone hseven hspace hne hspace
  have hzero := Writes.apply .mul hnegative hnone hspace hne hspace
  have hbody := Writes.apply .add hquotient hzero hspace hne (List.forall_mem_nil _)
  obtain ⟨x, hx, hi⟩ := calculate_exact (by decide) hspace hbody hline
  refine ⟨x, (congrArg calculate ?_).trans hx, hi⟩
  decide +kernel

end IntegerExpression

end PostfixArithmetic
