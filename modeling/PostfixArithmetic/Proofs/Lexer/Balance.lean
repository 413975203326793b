import PostfixArithmetic.Proofs.Lexer.Alphabet

/-!
# Counting in a text

The numerals and operator signs of a text are counted before it is split into
tokens. From the counts one sees where the first foreign character stands and
where an operator comes too early. All of this moves along when a piece is taken
off the front of the text.
-/

namespace PostfixArithmetic

/-- The number of numerals that start in a text. The flag says whether a digit came
just before, so that a numeral goes on. -/
def numeralCount : Bool → List Char → Nat
  | _, [] => 0
  | afterDigit, c :: rest =>
    (if isAsciiDigit c && !afterDigit then 1 else 0) + numeralCount (isAsciiDigit c) rest

/-- The numerals of a text minus its operator signs. -/
def textBalance (text : List Char) : Int :=
  (numeralCount false text : Int) - text.countP isOperatorSign

/-- A foreign character stands at an index of a text. -/
def ForeignAt (text : List Char) (index : Nat) : Prop :=
  ∃ c, text[index]? = some c ∧ isForeign c = true

/-- The sign of an operator stands at an index of a text, and with a stack of the
given depth before the text there are fewer than two operands for it. -/
def StarvedAt (depth : Int) (text : List Char) (index : Nat) : Prop :=
  ∃ c, text[index]? = some c ∧ isOperatorSign c = true ∧
    depth + textBalance (text.take index) < 2

/-- What holds of no index below `n` and of the others as another property does of
the index counted from there. -/
structure Shifted (p q : Nat → Prop) (n : Nat) : Prop where
  /-- It does not hold below. -/
  low : ∀ j < n, ¬ p j
  /-- From there on it is the other property. -/
  shift : ∀ j, p (n + j) ↔ q j

namespace Shifted

variable {p q : Nat → Prop} {n : Nat}

/-- The first index moves along. -/
theorem isLeast (h : Shifted p q n) {k : Nat} (hk : IsLeast {j | q j} k) :
    IsLeast {j | p j} (n + k) := by
  refine ⟨(h.shift k).mpr hk.1, fun j hj => ?_⟩
  have hn : n ≤ j := by
    by_contra hc
    exact h.low j (by omega) hj
  obtain ⟨i, rfl⟩ := Nat.exists_eq_add_of_le hn
  have hi := hk.2 ((h.shift i).mp hj)
  omega

/-- If there is no index on one side, there is none on the other. -/
theorem forall_not_iff (h : Shifted p q n) : (∀ j, ¬ p j) ↔ ∀ j, ¬ q j := by
  constructor
  · intro hp j hj
    exact hp (n + j) ((h.shift j).mpr hj)
  · intro hq j hj
    by_cases hn : j < n
    · exact h.low j hn hj
    · obtain ⟨i, rfl⟩ := Nat.exists_eq_add_of_le (Nat.not_lt.mp hn)
      exact hq i ((h.shift i).mp hj)

end Shifted

/-- An empty text is balanced. -/
@[simp]
theorem textBalance_nil : textBalance [] = 0 := rfl

/-- A blank does not count. -/
theorem textBalance_blank {c : Char} (h : isBlank c = true) (rest : List Char) :
    textBalance (c :: rest) = textBalance rest := by
  have hs := isOperatorSign_of_isBlank h
  have hd := isAsciiDigit_of_isBlank h
  simp [textBalance, numeralCount, hs, hd]

/-- A sign counts against the numerals. -/
theorem textBalance_sign {c : Char} (h : isOperatorSign c = true) (rest : List Char) :
    textBalance (c :: rest) = textBalance rest - 1 := by
  have hd := isAsciiDigit_of_isOperatorSign h
  simp only [textBalance, numeralCount, hd, List.countP_cons, h, Bool.false_and, Bool.false_eq_true,
    if_false, if_true]
  omega

/-- Without a digit in front it does not matter what came before. -/
theorem numeralCount_of_noDigitFirst {rest : List Char} (h : NoDigitFirst rest)
    (afterDigit : Bool) : numeralCount afterDigit rest = numeralCount false rest := by
  cases rest with
  | nil => rfl
  | cons c rest =>
    have hc := h c rfl
    simp only [numeralCount, hc, Bool.false_and]

/-- Further digits of a numeral do not count. -/
theorem numeralCount_digits {run rest : List Char} (hd : ∀ c ∈ run, isAsciiDigit c = true)
    (hr : NoDigitFirst rest) : numeralCount true (run ++ rest) = numeralCount false rest := by
  induction run with
  | nil => exact numeralCount_of_noDigitFirst hr true
  | cons c run ih =>
    obtain ⟨hc, hrun⟩ := List.forall_mem_cons.mp hd
    rw [List.cons_append, numeralCount, hc, ih hrun]
    exact Nat.zero_add _

/-- A run of digits that no digit follows counts as one numeral. -/
theorem textBalance_digits {run rest : List Char} (hne : run ≠ [])
    (hd : ∀ c ∈ run, isAsciiDigit c = true) (hr : NoDigitFirst rest) :
    textBalance (run ++ rest) = textBalance rest + 1 := by
  obtain ⟨c, run, rfl⟩ := List.exists_cons_of_ne_nil hne
  obtain ⟨hc, hrun⟩ := List.forall_mem_cons.mp hd
  have hsigns : (c :: run).countP isOperatorSign = 0 := by
    rw [List.countP_eq_zero]
    intro d hm
    rw [isOperatorSign_of_isAsciiDigit (hd d hm)]
    exact Bool.false_ne_true
  have hn := numeralCount_digits hrun hr
  rw [textBalance, textBalance, List.countP_append, hsigns, List.cons_append, numeralCount, hc, hn]
  simp only [Bool.not_false, Bool.and_self, if_true]
  omega

/-- An index behind a piece counts in the rest. -/
theorem getElem?_behind (piece rest : List Char) (j : Nat) :
    (piece ++ rest)[piece.length + j]? = rest[j]? := by
  rw [List.getElem?_append_right (Nat.le_add_right _ _), Nat.add_sub_cancel_left]

/-- Behind a piece whose characters all lack a property, those that have it are where
they are in the rest. -/
theorem shifted_of_forall_not {p : Char → Prop} {piece rest : List Char}
    (h : ∀ c ∈ piece, ¬ p c) :
    Shifted (fun j => ∃ c, (piece ++ rest)[j]? = some c ∧ p c)
      (fun j => ∃ c, rest[j]? = some c ∧ p c) piece.length := by
  refine ⟨fun j hj => ?_, fun j => ?_⟩
  · rintro ⟨c, hc, hp⟩
    rw [List.getElem?_append_left hj] at hc
    exact h c (List.mem_of_getElem? hc) hp
  · rw [getElem?_behind]

/-- Behind a piece without foreign characters, these are where they are in the rest. -/
theorem foreignAt_append {piece rest : List Char} (h : ∀ c ∈ piece, isForeign c = false) :
    Shifted (ForeignAt (piece ++ rest)) (ForeignAt rest) piece.length :=
  shifted_of_forall_not fun c hc => Bool.eq_false_iff.mp (h c hc)

/-- Behind a piece without a starved sign, the depth differs by what the piece
counts for. -/
theorem starvedAt_append {depth weight : Int} {piece rest : List Char}
    (hp : ∀ j < piece.length, ¬ StarvedAt depth (piece ++ rest) j)
    (hw : ∀ j, textBalance (piece ++ rest.take j) = textBalance (rest.take j) + weight) :
    Shifted (StarvedAt depth (piece ++ rest)) (StarvedAt (depth + weight) rest)
      piece.length := by
  refine ⟨hp, fun j => ?_⟩
  have ht : (piece ++ rest).take (piece.length + j) = piece ++ rest.take j :=
    List.take_length_add_append j
  have hd : depth + (textBalance (rest.take j) + weight) =
      depth + weight + textBalance (rest.take j) := by omega
  rw [StarvedAt, getElem?_behind, ht, hw, hd]
  exact Iff.rfl

/-- No sign is starved where there is none. -/
theorem not_starvedAt_of_forall {depth : Int} {piece rest : List Char}
    (h : ∀ c ∈ piece, isOperatorSign c = false) :
    ∀ j < piece.length, ¬ StarvedAt depth (piece ++ rest) j := by
  rintro j hj ⟨c, hc, hs, -⟩
  rw [List.getElem?_append_left hj] at hc
  rw [h c (List.mem_of_getElem? hc)] at hs
  exact Bool.false_ne_true hs

/-- A blank leaves the depth as it is. -/
theorem starvedAt_blank {c : Char} (h : isBlank c = true) (depth : Int) (rest : List Char) :
    Shifted (StarvedAt depth (c :: rest)) (StarvedAt depth rest) 1 := by
  have hp : ∀ j < [c].length, ¬ StarvedAt depth ([c] ++ rest) j :=
    not_starvedAt_of_forall (List.forall_mem_singleton.mpr (isOperatorSign_of_isBlank h))
  have hs := starvedAt_append hp fun j => (textBalance_blank h _).trans (Int.add_zero _).symm
  rw [Int.add_zero] at hs
  exact hs

/-- A sign that has its operands lowers the depth. -/
theorem starvedAt_sign {c : Char} (h : isOperatorSign c = true) {depth : Int} (hd : 2 ≤ depth)
    (rest : List Char) :
    Shifted (StarvedAt depth (c :: rest)) (StarvedAt (depth - 1) rest) 1 := by
  have hp : ∀ j < [c].length, ¬ StarvedAt depth ([c] ++ rest) j := by
    rintro j hj ⟨-, -, -, hlt⟩
    have hz : j = 0 := by
      rw [List.length_singleton] at hj
      omega
    rw [hz, List.take_zero, textBalance_nil] at hlt
    omega
  exact starvedAt_append hp fun j => textBalance_sign h _

/-- A numeral raises the depth. -/
theorem starvedAt_digits {run rest : List Char} (hne : run ≠ [])
    (hd : ∀ c ∈ run, isAsciiDigit c = true) (hr : NoDigitFirst rest) (depth : Int) :
    Shifted (StarvedAt depth (run ++ rest)) (StarvedAt (depth + 1) rest) run.length := by
  have hp : ∀ j < run.length, ¬ StarvedAt depth (run ++ rest) j :=
    not_starvedAt_of_forall fun c hc => isOperatorSign_of_isAsciiDigit (hd c hc)
  refine starvedAt_append hp fun j => textBalance_digits hne hd fun c hc => hr c ?_
  cases rest with
  | nil => rw [List.take_nil] at hc; exact hc
  | cons d rest =>
    cases j with
    | zero => cases hc
    | succ j => exact hc

end PostfixArithmetic
