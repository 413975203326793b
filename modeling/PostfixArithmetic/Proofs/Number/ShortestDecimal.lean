import PostfixArithmetic.Number.Shortest
import PostfixArithmetic.Proofs.Number.Digits

/-!
# The shortest decimal reads back

The bit pattern of a decimal depends on its value only: a zero may be moved between the
digits and the exponent. So trimming changes nothing, the exact expansion of a finite
magnitude is read as that magnitude, and with it whatever the search for the shortest
decimal comes up with.
-/

namespace PostfixArithmetic

namespace BitPattern

/-- Rounding sees nothing of a fraction but its value. -/
theorem nearest_mul_right {factor : Nat} (hf : 0 < factor) (numerator denominator : Nat) :
    nearest (numerator * factor) (denominator * factor) = nearest numerator denominator := by
  have hscaled : numerator * factor * 2 ^ 1074 = numerator * 2 ^ 1074 * factor :=
    Nat.mul_right_comm _ _ _
  have hiff : 2 ^ 2098 * (denominator * factor) ≤ numerator * factor * 2 ^ 1074 ↔
      2 ^ 2098 * denominator ≤ numerator * 2 ^ 1074 := by
    rw [hscaled, ← Nat.mul_assoc]
    exact Nat.mul_le_mul_right_iff hf
  by_cases hlarge : 2 ^ 2098 * denominator ≤ numerator * 2 ^ 1074
  · rw [nearest_of_large hlarge, nearest_of_large (hiff.mpr hlarge)]
  · rw [nearest_of_small hlarge, nearest_of_small (mt hiff.mp hlarge), hscaled,
      Nat.mul_div_mul_right _ _ hf]
    generalize numerator * 2 ^ 1074 = scaled
    simp only [← Nat.mul_assoc, Nat.mul_lt_mul_right hf]

end BitPattern

/-- A zero behind the digits of a number other than zero is one more digit. -/
theorem decimalLength_mul_ten {n : Nat} (h : n ≠ 0) :
    decimalLength (n * 10) = decimalLength n + 1 := by
  rw [decimalLength, if_neg (by omega), Nat.mul_div_cancel n (by decide)]

/-- A natural number is below the power of ten of its number of digits. -/
theorem lt_pow_decimalLength (n : Nat) : n < 10 ^ decimalLength n := by
  induction n using Nat.strongRecOn with
  | ind n ih =>
    rw [decimalLength]
    split
    · omega
    · have hd := ih (n / 10) (by omega)
      rw [pow_succ]
      omega

/-- A natural number from a power of ten on has more digits than that. -/
theorem lt_decimalLength {n k : Nat} (h : 10 ^ k ≤ n) : k < decimalLength n :=
  (Nat.pow_lt_pow_iff_right (by decide)).mp (h.trans_lt (lt_pow_decimalLength n))

namespace Decimal

/-- Without a digit other than zero the exponent does not matter. -/
theorem pattern_zero (exponent : Int) : pattern ⟨0, exponent⟩ = 0 :=
  if_pos (Or.inl rfl)

/-- A zero behind the digits does the same as one more in the exponent. -/
theorem pattern_mul_ten (coefficient : Nat) (exponent : Int) :
    pattern ⟨coefficient * 10, exponent⟩ = pattern ⟨coefficient, exponent + 1⟩ := by
  by_cases hz : coefficient = 0
  · rw [hz, Nat.zero_mul, pattern_zero, pattern_zero]
  have hne : coefficient * 10 ≠ 0 := by omega
  have hm : magnitude ⟨coefficient * 10, exponent⟩ = magnitude ⟨coefficient, exponent + 1⟩ := by
    simp only [magnitude, decimalLength_mul_ten hz]
    omega
  have hn : BitPattern.nearest (coefficient * 10 * Nat.pow 10 exponent.toNat)
      (Nat.pow 10 (-exponent).toNat) =
        BitPattern.nearest (coefficient * Nat.pow 10 (exponent + 1).toNat)
          (Nat.pow 10 (-(exponent + 1)).toNat) := by
    rw [BitPattern.pow_eq_hpow]
    by_cases he : 0 ≤ exponent
    · have hup : (exponent + 1).toNat = exponent.toNat + 1 := by omega
      have hdown : (-(exponent + 1)).toNat = (-exponent).toNat := by omega
      rw [hup, hdown, pow_succ', Nat.mul_assoc]
    · have hup : (exponent + 1).toNat = exponent.toNat := by omega
      have hdown : (-exponent).toNat = (-(exponent + 1)).toNat + 1 := by omega
      rw [hup, hdown, pow_succ, Nat.mul_right_comm, BitPattern.nearest_mul_right (by decide)]
  simp only [pattern, hz, hne, hm, hn]

/-- So do any number of zeros. -/
theorem pattern_mul_pow (coefficient zeros : Nat) (exponent : Int) :
    pattern ⟨coefficient * 10 ^ zeros, exponent⟩ = pattern ⟨coefficient, exponent + zeros⟩ := by
  induction zeros generalizing exponent with
  | zero => simp
  | succ zeros ih =>
    rw [pow_succ, ← Nat.mul_assoc, pattern_mul_ten, ih]
    congr 2
    omega

/-- Trimming keeps the pattern. -/
theorem pattern_trim (d : Decimal) : d.trim.pattern = d.pattern := by
  fun_induction trim d with
  | case1 d h ih =>
    have hten : d.coefficient / 10 * 10 = d.coefficient := by omega
    rw [ih, ← pattern_mul_ten, hten]
  | case2 d stop => rfl

/-- A fraction in the range of binary64 that meets a finite magnitude is read as it. -/
theorem pattern_of_scaled_units {coefficient places p : Nat} (hp : p < BitPattern.infinity)
    (h : coefficient * 2 ^ 1074 = BitPattern.units p * 10 ^ places) (hz : coefficient ≠ 0)
    (hlow : -324 ≤ magnitude ⟨coefficient, -places⟩)
    (hhigh : magnitude ⟨coefficient, -places⟩ < 309) : pattern ⟨coefficient, -places⟩ = p := by
  have hsmall : ¬ (coefficient = 0 ∨ magnitude ⟨coefficient, -places⟩ < -324) := by omega
  have hup : (-(places : Int)).toNat = 0 := by omega
  have hdown : (-(-(places : Int))).toNat = places := by omega
  rw [pattern, if_neg hsmall, if_neg (by omega), BitPattern.pow_eq_hpow, hup, hdown, pow_zero,
    Nat.mul_one]
  exact BitPattern.nearest_of_units (Nat.pow_pos (by decide)) hp h

end Decimal

namespace Shortest

/-- The exact expansion, with its power written with the operator. -/
theorem expansion_eq (pattern : Nat) :
    expansion pattern = ⟨BitPattern.units pattern * 5 ^ 1074, -(1074 : Nat)⟩ := by
  rw [expansion, BitPattern.pow_eq_hpow, Nat.cast_ofNat]

/-- The exact expansion of a finite magnitude other than zero has a leading digit within
the range of binary64. -/
theorem magnitude_expansion {pattern : Nat} (hz : BitPattern.units pattern ≠ 0)
    (hp : pattern < BitPattern.infinity) :
    -324 ≤ (expansion pattern).magnitude ∧ (expansion pattern).magnitude < 309 := by
  have hsmall : 10 ^ 750 ≤ 5 ^ 1074 := by decide +kernel
  have hlarge : 2 ^ 2098 * 5 ^ 1074 ≤ 10 ^ 1383 := by decide +kernel
  have hunits := BitPattern.units_lt_of_lt_infinity hp
  rw [expansion_eq, Decimal.magnitude]
  -- The power is hidden, so that no step evaluates it.
  generalize 5 ^ 1074 = scale at *
  have hscale : 0 < scale := Nat.lt_of_lt_of_le (Nat.pow_pos (by decide)) hsmall
  have hleast := Nat.le_mul_of_pos_left scale (Nat.pos_of_ne_zero hz)
  have hlow := lt_decimalLength (hsmall.trans hleast)
  have hproduct := (Nat.mul_lt_mul_right hscale).mpr hunits
  have hhigh := decimalLength_le (by decide) (hproduct.trans_le hlarge)
  dsimp only
  omega

/-- The exact expansion of a finite magnitude other than zero reads back. -/
theorem pattern_expansion {pattern : Nat} (hz : pattern ≠ 0)
    (hp : pattern < BitPattern.infinity) : (expansion pattern).pattern = pattern := by
  have hu := BitPattern.units_ne_zero hz
  obtain ⟨hlow, hhigh⟩ := magnitude_expansion hu hp
  have hpowers : ∀ k, 5 ^ k * 2 ^ k = 10 ^ k := fun k => (Nat.mul_pow 5 2 k).symm
  have hscale : ∀ k, 0 < 5 ^ k := fun k => Nat.pow_pos (by decide)
  rw [expansion_eq] at hlow hhigh ⊢
  refine Decimal.pattern_of_scaled_units hp ?_ (Nat.mul_ne_zero hu (hscale 1074).ne') hlow hhigh
  rw [Nat.mul_assoc, hpowers]

/-- The shortest decimal of a finite magnitude reads back. -/
theorem pattern_decimal {pattern : Nat} (h : pattern < BitPattern.infinity) :
    (decimal pattern).pattern = pattern := by
  unfold decimal
  split
  · rename_i hz
    rw [hz, Decimal.pattern_zero]
  · rename_i hz
    dsimp only
    rw [Decimal.pattern_trim]
    cases hc : ((List.range 17).map (· + 1)).findSome? (neighbour? pattern) with
    | none => exact pattern_expansion hz h
    | some d =>
      obtain ⟨digits, -, hd⟩ := List.exists_of_findSome?_eq_some hc
      exact pattern_of_neighbour hd

end Shortest

end PostfixArithmetic
