import PostfixArithmetic.Proofs.Number.ShortestDecimal
import PostfixArithmetic.Proofs.Text.Printed

/-!
# Written numbers read back

Every number is read from the text that it is written as. A decimal is written with a
point or with an exponent, and its digits keep their value in both layouts; zeros that
fill up the places before the point move into the exponent. Signs and names are told apart
by the first character, and the one not-a-number that there is has a name.
-/

namespace PostfixArithmetic

namespace Written

/-- The digits of a natural number are those of the library. -/
theorem decimalDigits_eq_toDigits (n : Nat) : decimalDigits n = Nat.toDigits 10 n := by
  induction n using Nat.strongRecOn with
  | ind n ih =>
    rw [decimalDigits]
    split
    · rename_i hn
      exact (Nat.toDigits_of_lt_base hn).symm
    · rename_i hn
      rw [ih (n / 10) (by omega), Nat.toDigits_of_base_le (by decide) (Nat.not_lt.mp hn)]

/-- They are digits. -/
theorem isAsciiDigit_of_mem_decimalDigits {n : Nat} {c : Char} (h : c ∈ decimalDigits n) :
    isAsciiDigit c = true := by
  rw [decimalDigits_eq_toDigits] at h
  exact isAsciiDigit_of_mem_toDigits h

/-- There is at least one. -/
theorem decimalDigits_ne_nil (n : Nat) : decimalDigits n ≠ [] := by
  rw [decimalDigits_eq_toDigits]
  exact Nat.toDigits_ne_nil

/-- Their value is the number. -/
theorem digitsValue_decimalDigits (n : Nat) : digitsValue (decimalDigits n) = n := by
  rw [digitsValue_eq_ofDigitChars, decimalDigits_eq_toDigits, Nat.ofDigitChars_ten_toDigits]

end Written

namespace Numeral

/-- A point behind digits starts the fraction, and the exponent counts its digits. -/
theorem readDecimal?_point {whole fraction tail : List Char}
    (hwhole : ∀ c ∈ whole, isAsciiDigit c = true) (hne : whole ≠ [])
    (hfraction : ∀ c ∈ fraction, isAsciiDigit c = true)
    (htail : ∀ c ∈ tail.head?, isAsciiDigit c = false) :
    readDecimal? (whole ++ '.' :: (fraction ++ tail)) =
      (readExponent? tail).map fun exponent =>
        ⟨digitsValue (whole ++ fraction), exponent - fraction.length⟩ := by
  have hpoint : ∀ c ∈ ('.' :: (fraction ++ tail)).head?, isAsciiDigit c = false := by
    rintro c ⟨⟩
    rfl
  obtain ⟨ht, hd⟩ := span_append hwhole hpoint
  obtain ⟨hft, hfd⟩ := span_append hfraction htail
  simp only [readDecimal?, ht, hd, splitFraction, hft, hfd, hne, false_and, if_false]

/-- A numeral may end with its fraction. -/
theorem readDecimal?_positional {whole fraction : List Char}
    (hwhole : ∀ c ∈ whole, isAsciiDigit c = true) (hne : whole ≠ [])
    (hfraction : ∀ c ∈ fraction, isAsciiDigit c = true) :
    readDecimal? (whole ++ '.' :: fraction) =
      some ⟨digitsValue (whole ++ fraction), -fraction.length⟩ := by
  have hend : ∀ c ∈ ([] : List Char).head?, isAsciiDigit c = false := fun c hc => by cases hc
  have hread := readDecimal?_point hwhole hne hfraction hend
  rw [List.append_nil, readExponent?, Option.map_some, Int.zero_sub] at hread
  exact hread

/-- An exponent is read with its sign. -/
theorem readExponent?_signed {digits : List Char} (hd : ∀ c ∈ digits, isAsciiDigit c = true)
    (hne : digits ≠ []) {leading : Int} (hv : digitsValue digits = leading.natAbs) :
    readExponent? ('e' :: (if leading < 0 then '-' else '+') :: digits) = some leading := by
  have hall : digits.all isAsciiDigit = true := List.all_eq_true.mpr hd
  by_cases hs : leading < 0
  · have hvalue : -(digitsValue digits : Int) = leading := by omega
    simp [readExponent?, hs, splitSign, hne, hall, hvalue]
  · have hvalue : (digitsValue digits : Int) = leading := by omega
    simp [readExponent?, hs, splitSign, hne, hall, hvalue]

end Numeral

namespace Written

open Numeral

/-- Digits that are written positionally stand around the point, with zeros in front of
them and behind them. -/
theorem exists_plain_eq {digits : List Char} (hne : digits ≠ []) (leading : Int) :
    ∃ (whole fraction : List Char) (before behind : Nat),
      plain digits leading = whole ++ '.' :: fraction ∧ whole ≠ [] ∧
        whole ++ fraction = List.replicate before '0' ++ (digits ++ List.replicate behind '0') ∧
        -(fraction.length : Int) + behind = leading - digits.length + 1 := by
  have hlength := List.length_pos_iff.mpr hne
  unfold plain
  split
  · rename_i hl
    refine ⟨['0'], List.replicate (-leading - 1).toNat '0' ++ digits, (-leading - 1).toNat + 1, 0,
      rfl, List.cons_ne_nil _ _, ?_, ?_⟩
    · rw [List.replicate_succ, List.replicate_zero, List.append_nil]
      rfl
    · rw [List.length_append, List.length_replicate]
      omega
  · rename_i hl
    dsimp only
    by_cases hlong : leading.toNat + 1 < digits.length
    · have hfill : leading.toNat + 1 - digits.length = 0 := by omega
      have hrest : digits.drop (leading.toNat + 1) ≠ [] := by
        rw [Ne, List.drop_eq_nil_iff]
        omega
      have hfirst : digits.take (leading.toNat + 1) ≠ [] := by
        rw [Ne, List.take_eq_nil_iff]
        exact not_or.mpr ⟨Nat.succ_ne_zero _, hne⟩
      rw [hfill, List.replicate_zero, List.append_nil, if_neg hrest]
      refine ⟨_, _, 0, 0, rfl, hfirst, ?_, ?_⟩
      · rw [List.take_append_drop, List.replicate_zero, List.append_nil, List.nil_append]
      · rw [List.length_drop]
        omega
    · have hshort : digits.length ≤ leading.toNat + 1 := Nat.not_lt.mp hlong
      rw [List.take_of_length_le hshort, List.drop_of_length_le hshort, if_pos rfl]
      refine ⟨_, _, 0, leading.toNat + 1 - digits.length + 1, rfl,
        List.append_ne_nil_of_left_ne_nil hne _, ?_, ?_⟩
      · rw [List.replicate_succ', List.append_assoc, List.replicate_zero, List.nil_append]
      · rw [List.length_singleton]
        omega

/-- So they keep their value. -/
theorem denotes_plain {digits : List Char} (hd : ∀ c ∈ digits, isAsciiDigit c = true)
    (hne : digits ≠ []) (leading : Int) :
    Denotes (plain digits leading) ⟨digitsValue digits, leading - digits.length + 1⟩ := by
  obtain ⟨whole, fraction, before, behind, hp, hw, hall, hexponent⟩ := exists_plain_eq hne leading
  have hdigits : ∀ c ∈ whole ++ fraction, isAsciiDigit c = true := by
    rw [hall]
    simp only [List.forall_mem_append]
    exact ⟨fun c => isAsciiDigit_of_mem_zeros, hd, fun c => isAsciiDigit_of_mem_zeros⟩
  obtain ⟨hwhole, hfraction⟩ := List.forall_mem_append.mp hdigits
  rw [hp]
  refine ⟨starts_append hwhole hw _, _, readDecimal?_positional hwhole hw hfraction, ?_⟩
  rw [hall, digitsValue_zeros_append, digitsValue_append_zeros, Decimal.pattern_mul_pow, hexponent]

/-- Digits that are written with an exponent keep their value too. -/
theorem denotes_scientific {digits : List Char} (hd : ∀ c ∈ digits, isAsciiDigit c = true)
    (hne : digits ≠ []) (width : Nat) (leading : Int) :
    Denotes (scientific width digits leading)
      ⟨digitsValue digits, leading - digits.length + 1⟩ := by
  obtain ⟨first, fraction, rfl⟩ := List.exists_cons_of_ne_nil hne
  obtain ⟨hfirst, hfraction⟩ := List.forall_mem_cons.mp hd
  have hwhole : ∀ c ∈ [first], isAsciiDigit c = true := List.forall_mem_singleton.mpr hfirst
  -- The exponent with its sign, which is what stands behind the digits.
  obtain ⟨exponent, hshape, hread⟩ : ∃ exponent : List Char,
      scientific width (first :: fraction) leading =
        [first] ++ ((if fraction = [] then [] else '.' :: fraction) ++ 'e' :: exponent) ∧
      readExponent? ('e' :: exponent) = some leading := by
    have hdigits : ∀ c ∈ List.replicate (width - (decimalDigits leading.natAbs).length) '0' ++
        decimalDigits leading.natAbs, isAsciiDigit c = true :=
      List.forall_mem_append.mpr
        ⟨fun c => isAsciiDigit_of_mem_zeros, fun c => isAsciiDigit_of_mem_decimalDigits⟩
    refine ⟨_, ?_, readExponent?_signed hdigits
      (List.append_ne_nil_of_right_ne_nil _ (decimalDigits_ne_nil _))
      ((digitsValue_zeros_append _ _).trans (digitsValue_decimalDigits _))⟩
    simp [scientific]
  have htail : ∀ c ∈ ('e' :: exponent).head?, isAsciiDigit c = false := by
    rintro c ⟨⟩
    rfl
  rw [hshape]
  refine ⟨starts_append hwhole (List.cons_ne_nil _ _) _, ?_⟩
  by_cases hone : fraction = []
  · subst hone
    rw [if_pos rfl, List.nil_append]
    have hnone := readDecimal?_whole hwhole (List.cons_ne_nil _ _) htail (by rintro ⟨⟩)
    rw [hread, Option.map_some] at hnone
    have he : leading - [first].length + 1 = leading := by
      rw [List.length_singleton]
      omega
    exact ⟨_, hnone, by rw [he]⟩
  · rw [if_neg hone, List.cons_append]
    have hpoint := readDecimal?_point hwhole (List.cons_ne_nil _ _) hfraction htail
    rw [hread, Option.map_some] at hpoint
    have he : leading - (first :: fraction).length + 1 = leading - fraction.length := by
      rw [List.length_cons]
      omega
    exact ⟨_, hpoint, by rw [he, List.singleton_append]⟩

/-- In either layout a decimal is written as a numeral for it. -/
theorem denotes_decimal (l : Layout) (d : Decimal) : Denotes (l.decimal d) d := by
  have hd : ∀ c ∈ decimalDigits d.coefficient, isAsciiDigit c = true := fun c =>
    isAsciiDigit_of_mem_decimalDigits
  have hne := decimalDigits_ne_nil d.coefficient
  have hplain := denotes_plain hd hne ((decimalDigits d.coefficient).length - 1 + d.exponent)
  have hscientific := denotes_scientific hd hne l.exponentWidth
    ((decimalDigits d.coefficient).length - 1 + d.exponent)
  have he : ((decimalDigits d.coefficient).length : Int) - 1 + d.exponent -
      (decimalDigits d.coefficient).length + 1 = d.exponent := by omega
  rw [digitsValue_decimalDigits, he] at hplain hscientific
  unfold Layout.decimal
  dsimp only
  split
  · exact hplain
  · exact hscientific

/-- A magnitude that is no more than infinity has no sign, and is read back. -/
theorem readMagnitude?_magnitude {pattern : Nat} (h : pattern ≤ BitPattern.infinity) :
    splitSign (magnitude pattern) = (false, magnitude pattern) ∧
      readMagnitude? (magnitude pattern) = some pattern := by
  unfold magnitude
  split
  · rename_i hi
    rw [hi]
    exact ⟨rfl, by decide⟩
  · rename_i hi
    have hd := denotes_decimal layout (Shortest.decimal pattern)
    have hp := Shortest.pattern_decimal (Nat.lt_of_le_of_ne h hi)
    exact ⟨hd.splitSign, hd.readMagnitude?.trans (congrArg some hp)⟩

/-- The characters of a number stand for its sign and its magnitude. -/
theorem read_characters (x : Float) :
    (readMagnitude? (splitSign (characters x)).2).map
      (BitPattern.toFloat (splitSign (characters x)).1) = some x := by
  unfold characters
  dsimp only
  split
  · rename_i hnan
    exact congrArg some (BitPattern.toFloat_nan hnan)
  · rename_i hle
    obtain ⟨hsign, hread⟩ := readMagnitude?_magnitude (Nat.not_lt.mp hle)
    have hx := BitPattern.toFloat_ofFloat x
    split
    · rename_i hnegative
      rw [hnegative] at hx
      rw [splitSign, hread, Option.map_some, hx]
    · rename_i hpositive
      rw [Bool.eq_false_iff.mpr hpositive] at hx
      rw [hsign, hread, Option.map_some, hx]

/-- Every number is read from the text that it is written as. -/
theorem read?_number (x : Float) : read? (number x) = some x := by
  have hclean : alphabet.all (fun c => !isAsciiBlank c && c != '_') = true := by decide
  have hall : ∀ c ∈ characters x, isAsciiBlank c = false ∧ c ≠ '_' := by
    intro c hc
    have h := List.all_eq_true.mp hclean c (characters_subset x hc)
    simpa using h
  rw [number, read?_ofList (fun c hc => (hall c hc).1) fun hc => (hall _ hc).2 rfl]
  exact read_characters x

end Written

end PostfixArithmetic
