import PostfixArithmetic.Number.Numeral
import PostfixArithmetic.Proofs.Number.Bits

/-!
# Numerals of digits

What starts with a digit has no sign and is no name, so it is read as a decimal or not at
all. A numeral that is made of digits only is read as the number nearest to the natural
number that it writes. That number is infinite or a natural number again, and where
the natural number is a binary64 number it is read without loss, whatever the
number of leading zeros.
-/

namespace PostfixArithmetic

/-- A number is the natural number `n`: it is finite, has no minus sign, not even in
front of zero, and no fraction. -/
structure IsNatural (x : Float) (n : Nat) : Prop where
  /-- The sign bit is not set. -/
  positive : BitPattern.isNegative x = false
  /-- The magnitude is finite. -/
  finite : BitPattern.ofFloat x < BitPattern.infinity
  /-- The magnitude is that of `n`. -/
  whole : BitPattern.units (BitPattern.ofFloat x) = n * 2 ^ 1074

/-- The digits of a natural number behind so many zeros. -/
def paddedDigits (zeros n : Nat) : List Char :=
  List.replicate zeros '0' ++ Nat.toDigits 10 n

/-- A character is a digit exactly when the library says so. -/
theorem isAsciiDigit_eq_isDigit (c : Char) : isAsciiDigit c = c.isDigit :=
  rfl

/-- The value of digits is that of the library. -/
theorem digitsValue_eq_ofDigitChars (digits : List Char) :
    digitsValue digits = Nat.ofDigitChars 10 digits 0 :=
  rfl

/-- The digits of a natural number are digits. -/
theorem isAsciiDigit_of_mem_toDigits {n : Nat} {c : Char} (h : c ∈ Nat.toDigits 10 n) :
    isAsciiDigit c = true := by
  rw [isAsciiDigit_eq_isDigit]
  exact Nat.isDigit_of_mem_toDigits (by decide) (by decide) h

/-- So are the characters that it is shown with. -/
theorem isAsciiDigit_of_mem_repr {n : Nat} {c : Char} (h : c ∈ n.repr.toList) :
    isAsciiDigit c = true := by
  rw [Nat.toList_repr] at h
  exact isAsciiDigit_of_mem_toDigits h

/-- Zeros are digits. -/
theorem isAsciiDigit_of_mem_zeros {zeros : Nat} {c : Char} (h : c ∈ List.replicate zeros '0') :
    isAsciiDigit c = true := by
  rw [List.eq_of_mem_replicate h]
  rfl

/-- Padded digits are digits. -/
theorem isAsciiDigit_of_mem_paddedDigits {zeros n : Nat} {c : Char}
    (h : c ∈ paddedDigits zeros n) : isAsciiDigit c = true :=
  (List.mem_append.mp h).elim isAsciiDigit_of_mem_zeros isAsciiDigit_of_mem_toDigits

/-- Zeros in front of digits have no value. -/
theorem digitsValue_zeros_append (zeros : Nat) (digits : List Char) :
    digitsValue (List.replicate zeros '0' ++ digits) = digitsValue digits := by
  rw [digitsValue_eq_ofDigitChars, Nat.ofDigitChars_append, Nat.ofDigitChars_replicate_zero,
    Nat.mul_zero, digitsValue_eq_ofDigitChars]

/-- Every zero behind digits multiplies their value by ten. -/
theorem digitsValue_append_zeros (digits : List Char) (zeros : Nat) :
    digitsValue (digits ++ List.replicate zeros '0') = digitsValue digits * 10 ^ zeros := by
  rw [digitsValue_eq_ofDigitChars, Nat.ofDigitChars_append, Nat.ofDigitChars_replicate_zero,
    digitsValue_eq_ofDigitChars, Nat.mul_comm]

/-- Padded digits have the value that they are made from. -/
theorem digitsValue_paddedDigits (zeros n : Nat) : digitsValue (paddedDigits zeros n) = n := by
  rw [paddedDigits, digitsValue_zeros_append, digitsValue_eq_ofDigitChars,
    Nat.ofDigitChars_ten_toDigits]

/-- A natural number below a power of ten has at most so many digits. -/
theorem decimalLength_le {n k : Nat} (hk : 0 < k) (h : n < 10 ^ k) : decimalLength n ≤ k := by
  induction k generalizing n with
  | zero => omega
  | succ k ih =>
    rw [decimalLength]
    split
    · omega
    · have hz : 0 < k := by
        by_contra hc
        have hk : k = 0 := by omega
        subst hk
        omega
      have hd : n / 10 < 10 ^ k := by
        rw [pow_succ] at h
        omega
      have hl := ih hz hd
      omega

/-- A number has at least one digit. -/
theorem decimalLength_pos (n : Nat) : 0 < decimalLength n := by
  rw [decimalLength]
  split <;> omega

namespace Decimal

/-- The leading digit of a natural number counts the digits behind it. -/
theorem magnitude_natural (n : Nat) : magnitude ⟨n, 0⟩ = (decimalLength n : Int) - 1 :=
  Int.add_zero _

/-- A natural number is zero, infinite from `10 ^ 309` on, or rounded as it stands. -/
theorem pattern_natural (n : Nat) :
    pattern ⟨n, 0⟩ =
      if n = 0 then 0
      else if 309 < decimalLength n then BitPattern.infinity
      else BitPattern.nearest n 1 := by
  have hpos := decimalLength_pos n
  have hm := magnitude_natural n
  have hsmall : (n = 0 ∨ magnitude ⟨n, 0⟩ < -324) ↔ n = 0 := by omega
  have hlarge : 309 ≤ magnitude ⟨n, 0⟩ ↔ 309 < decimalLength n := by omega
  have hone : Nat.pow 10 0 = 1 := rfl
  simp only [pattern, hsmall, hlarge, Int.neg_zero, Int.toNat_zero, hone, Nat.mul_one]

/-- A natural number that is met exactly is read without loss. -/
theorem pattern_of_units {n p : Nat} (hp : p < BitPattern.infinity)
    (h : BitPattern.units p = n * 2 ^ 1074) : pattern ⟨n, 0⟩ = p := by
  have hlarge : 2 ^ 2098 ≤ 10 ^ 309 * 2 ^ 1074 := by decide +kernel
  have hn : n < 10 ^ 309 := by
    have hu := Nat.lt_of_lt_of_le (BitPattern.units_lt_of_lt_infinity hp) hlarge
    rw [h] at hu
    exact Nat.lt_of_mul_lt_mul_right hu
  have hl := decimalLength_le (by omega) hn
  rw [pattern_natural, if_neg (by omega : ¬ 309 < decimalLength n)]
  by_cases hz : n = 0
  · rw [if_pos hz, ← BitPattern.floorOfUnits_units p, h, hz, Nat.zero_mul]
    decide +kernel
  · rw [if_neg hz]
    exact BitPattern.nearest_of_units Nat.one_pos hp (h.symm.trans (Nat.mul_one _).symm)

/-- Every natural number is read as infinity or as a natural number. -/
theorem pattern_natural_cases (n : Nat) :
    pattern ⟨n, 0⟩ = BitPattern.infinity ∨
      pattern ⟨n, 0⟩ < BitPattern.infinity ∧
        ∃ m, BitPattern.units (pattern ⟨n, 0⟩) = m * 2 ^ 1074 := by
  rw [pattern_natural]
  split
  · refine Or.inr ⟨by decide, 0, ?_⟩
    rw [Nat.zero_mul]
    decide +kernel
  · split
    · exact Or.inl rfl
    · exact BitPattern.nearest_whole n

end Decimal

/-- A list is cut behind its members of a class if the first of the others is none. -/
theorem span_append {α : Type} {p : α → Bool} {earlier later : List α}
    (he : ∀ e ∈ earlier, p e = true) (hl : ∀ e ∈ later.head?, p e = false) :
    (earlier ++ later).takeWhile p = earlier ∧ (earlier ++ later).dropWhile p = later := by
  rw [List.takeWhile_append_of_pos he, List.dropWhile_append_of_pos he]
  cases later with
  | nil => exact ⟨List.append_nil earlier, rfl⟩
  | cons e later =>
    have hn : ¬ p e = true := by
      rw [hl e rfl]
      exact Bool.false_ne_true
    rw [List.takeWhile_cons_of_neg hn, List.dropWhile_cons_of_neg hn, List.append_nil]
    exact ⟨rfl, rfl⟩

/-- Nothing is trimmed from a text without the dropped characters. -/
theorem trimBoth_of_forall {drop : Char → Bool} {text : List Char}
    (h : ∀ c ∈ text, drop c = false) : trimBoth drop text = text := by
  have hkeep : ∀ kept : List Char, (∀ c ∈ kept, drop c = false) → kept.dropWhile drop = kept := by
    intro kept hk
    rw [List.dropWhile_eq_self_iff]
    intro hl
    rw [hk _ (List.getElem_mem hl)]
    exact Bool.false_ne_true
  have hback : ∀ c ∈ text.reverse, drop c = false := fun c hc => h c (List.mem_reverse.mp hc)
  rw [trimBoth, hkeep text h, hkeep text.reverse hback, List.reverse_reverse]

/-- A digit is not an ASCII blank. -/
theorem isAsciiBlank_of_isAsciiDigit {c : Char} (h : isAsciiDigit c = true) :
    isAsciiBlank c = false := by
  simp only [isAsciiDigit, Bool.and_eq_true, decide_eq_true_eq] at h
  simp only [isAsciiBlank, Bool.or_eq_false_iff, Bool.and_eq_false_iff, decide_eq_false_iff_not]
  omega

/-- A digit has no lower case. -/
theorem toLower_of_isAsciiDigit {c : Char} (h : isAsciiDigit c = true) : c.toLower = c := by
  simp only [isAsciiDigit, Bool.and_eq_true, decide_eq_true_eq] at h
  have hc : ¬ (c.val ≥ 'A'.val ∧ c.val ≤ 'Z'.val) := by
    rintro ⟨hlow, -⟩
    have hn : 65 ≤ c.toNat := hlow
    omega
  exact dif_neg hc

namespace Numeral

/-- The number nearest to the natural number that digits write. -/
def ofDigits (digits : List Char) : Float :=
  BitPattern.toFloat false (Decimal.pattern ⟨digitsValue digits, 0⟩)

/-- Without a point there is no fraction. -/
theorem readDecimal?_whole {whole tail : List Char}
    (hwhole : ∀ c ∈ whole, isAsciiDigit c = true) (hne : whole ≠ [])
    (htail : ∀ c ∈ tail.head?, isAsciiDigit c = false) (hpoint : '.' ∉ tail.head?) :
    readDecimal? (whole ++ tail) =
      (readExponent? tail).map fun exponent => ⟨digitsValue whole, exponent⟩ := by
  obtain ⟨ht, hd⟩ := span_append hwhole htail
  have hsplit : splitFraction tail = ([], tail) := by
    unfold splitFraction
    split
    · exact absurd rfl hpoint
    · rfl
  simp [readDecimal?, ht, hd, hsplit, hne]

/-- A text is an unsigned numeral for a decimal: it starts with a digit, and is read as a
decimal of the same bit pattern. -/
structure Denotes (text : List Char) (d : Decimal) : Prop where
  /-- The first character is a digit. -/
  starts : ∃ c ∈ text.head?, isAsciiDigit c = true
  /-- The decimal that is read rounds to the same number. -/
  reads : ∃ found, readDecimal? text = some found ∧ found.pattern = d.pattern

/-- Digits with a text behind them start with a digit. -/
theorem starts_append {digits : List Char} (hd : ∀ c ∈ digits, isAsciiDigit c = true)
    (hne : digits ≠ []) (rest : List Char) :
    ∃ c ∈ (digits ++ rest).head?, isAsciiDigit c = true := by
  obtain ⟨first, others, rfl⟩ := List.exists_cons_of_ne_nil hne
  exact ⟨first, rfl, hd first List.mem_cons_self⟩

/-- What starts with a digit is no name, so a numeral for a decimal has its pattern. -/
theorem Denotes.readMagnitude? {text : List Char} {d : Decimal} (h : Denotes text d) :
    readMagnitude? text = some d.pattern := by
  obtain ⟨found, hread, hpattern⟩ := h.reads
  obtain ⟨c, hc, hdigit⟩ := h.starts
  have hname : ∀ first name, isAsciiDigit first = false →
      text.map Char.toLower ≠ first :: name := by
    intro first name hf hsame
    have hhead := congrArg List.head? hsame
    rw [List.head?_map, hc, Option.map_some, toLower_of_isAsciiDigit hdigit] at hhead
    cases hhead
    rw [hf] at hdigit
    cases hdigit
  have hinf : text.map Char.toLower ≠ "inf".toList := hname 'i' "nf".toList rfl
  have hinfinity : text.map Char.toLower ≠ "infinity".toList := hname 'i' "nfinity".toList rfl
  have hnan : text.map Char.toLower ≠ "nan".toList := hname 'n' "an".toList rfl
  simp only [Numeral.readMagnitude?, hinf, hinfinity, hnan, or_self, if_false, hread,
    Option.map_some, hpattern]

/-- Nor has it a sign. -/
theorem Denotes.splitSign {text : List Char} {d : Decimal} (h : Denotes text d) :
    splitSign text = (false, text) := by
  obtain ⟨c, hc, hdigit⟩ := h.starts
  unfold Numeral.splitSign
  split
  · cases hc
    cases hdigit
  · cases hc
    cases hdigit
  · rfl

/-- A text without blanks and underscores is read as its sign and its magnitude. -/
theorem read?_ofList {text : List Char} (hblank : ∀ c ∈ text, isAsciiBlank c = false)
    (hplain : '_' ∉ text) :
    read? (String.ofList text) =
      (readMagnitude? (splitSign text).2).map (BitPattern.toFloat (splitSign text).1) := by
  simp only [read?, String.toList_ofList, trimBoth_of_forall hblank,
    dropSeparators_of_not_mem hplain]

/-- Digits alone are a numeral for their value. -/
theorem denotes_digits {digits : List Char} (hne : digits ≠ [])
    (h : ∀ c ∈ digits, isAsciiDigit c = true) : Denotes digits ⟨digitsValue digits, 0⟩ := by
  have hend : ∀ c ∈ ([] : List Char).head?, isAsciiDigit c = false := fun c hc => by cases hc
  have hstarts := starts_append h hne []
  have hread := readDecimal?_whole h hne hend (by rintro ⟨⟩)
  rw [List.append_nil] at hstarts hread
  exact ⟨hstarts, _, hread, rfl⟩

/-- So they are always a numeral. -/
theorem read?_digits {digits : List Char} (hne : digits ≠ [])
    (h : ∀ c ∈ digits, isAsciiDigit c = true) :
    read? (String.ofList digits) = some (ofDigits digits) := by
  have hd := denotes_digits hne h
  rw [read?_ofList (fun c hc => isAsciiBlank_of_isAsciiDigit (h c hc))
    fun hc => absurd (h _ hc) (by decide), hd.splitSign, hd.readMagnitude?, Option.map_some,
    ofDigits]

/-- Digits are read as infinity or as a natural number. -/
theorem ofDigits_cases (digits : List Char) :
    ofDigits digits = BitPattern.toFloat false BitPattern.infinity ∨
      ∃ n, IsNatural (ofDigits digits) n := by
  rcases Decimal.pattern_natural_cases (digitsValue digits) with hi | ⟨hlt, n, hn⟩
  · exact Or.inl (by rw [ofDigits, hi])
  · refine Or.inr ⟨n, ?_, ?_, ?_⟩
    · exact BitPattern.isNegative_toFloat hlt.le false
    · rw [ofDigits, BitPattern.ofFloat_toFloat hlt.le]
      exact hlt
    · rw [ofDigits, BitPattern.ofFloat_toFloat hlt.le]
      exact hn

/-- The digits of a natural number are read as that number. -/
theorem ofDigits_of_isNatural {digits : List Char} {x : Float}
    (h : IsNatural x (digitsValue digits)) : ofDigits digits = x := by
  have hx := BitPattern.toFloat_ofFloat x
  rw [h.positive] at hx
  rw [ofDigits, Decimal.pattern_of_units h.finite h.whole, hx]

end Numeral

end PostfixArithmetic
