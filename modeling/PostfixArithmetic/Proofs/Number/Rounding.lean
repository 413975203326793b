import Mathlib.Tactic.Ring
import Mathlib.Tactic.SplitIfs
import PostfixArithmetic.Number.BitPattern

/-!
# Rounding to bit patterns

A significand of at most 53 bits, shifted left, is the magnitude of the pattern
that counts the shift in its exponent. From this the pattern below a number of
units is computed exactly, and rounding is exact wherever a magnitude is met. A
whole number is rounded to a whole number or to infinity.
-/

namespace PostfixArithmetic.BitPattern

/-- The power function written with its operator. -/
theorem pow_eq_hpow : Nat.pow = HPow.hPow :=
  rfl

/-- The magnitude of a pattern from its exponent and its fraction. -/
theorem units_eq (pattern : Nat) :
    units pattern =
      if pattern / 2 ^ 52 = 0 then pattern % 2 ^ 52
      else (2 ^ 52 + pattern % 2 ^ 52) * 2 ^ (pattern / 2 ^ 52 - 1) := by
  rw [units, pow_eq_hpow]

/-- The pattern below a count keeps its leading bits and counts the others. -/
theorem floorOfUnits_eq (count : Nat) :
    floorOfUnits count =
      (count.log2 - 52) * 2 ^ 52 + count / 2 ^ (count.log2 - 52) := by
  rw [floorOfUnits, pow_eq_hpow]

/-- Quotients from `2 ^ 1024` on are infinite. -/
theorem nearest_of_large {numerator denominator : Nat}
    (h : 2 ^ 2098 * denominator ≤ numerator * 2 ^ 1074) :
    nearest numerator denominator = infinity := by
  rw [nearest, pow_eq_hpow]
  -- The powers are hidden first, so that no step evaluates them.
  generalize numerator * 2 ^ 1074 = scaled, 2 ^ 2098 * denominator = bound at h ⊢
  exact if_pos h

/-- Below that, the middle between two neighbouring magnitudes decides. -/
theorem nearest_of_small {numerator denominator : Nat}
    (h : ¬ 2 ^ 2098 * denominator ≤ numerator * 2 ^ 1074) :
    nearest numerator denominator =
      (let below := floorOfUnits (numerator * 2 ^ 1074 / denominator)
      let middle := (units below + units (below + 1)) * denominator
      if 2 * (numerator * 2 ^ 1074) < middle then below
      else if middle < 2 * (numerator * 2 ^ 1074) then below + 1
      else if below % 2 = 0 then below
      else below + 1) := by
  rw [nearest, pow_eq_hpow]
  generalize numerator * 2 ^ 1074 = scaled, 2 ^ 2098 * denominator = bound at h ⊢
  exact if_neg h

/-- The magnitude of a shifted significand. Without a shift the significand may be
small; a carry up to the next power of two is allowed. -/
theorem units_shifted {shift significand : Nat} (hlow : shift = 0 ∨ 2 ^ 52 ≤ significand)
    (hhigh : significand ≤ 2 ^ 53) :
    units (shift * 2 ^ 52 + significand) = significand * 2 ^ shift := by
  by_cases hsmall : significand < 2 ^ 52
  · have hs : shift = 0 := hlow.resolve_right (by omega)
    rw [hs, Nat.zero_mul, Nat.zero_add, units_of_lt hsmall, pow_zero, Nat.mul_one]
  · by_cases hcarry : significand = 2 ^ 53
    · have he : (shift * 2 ^ 52 + significand) / 2 ^ 52 = shift + 2 := by omega
      have hf : (shift * 2 ^ 52 + significand) % 2 ^ 52 = 0 := by omega
      have hp : 2 ^ (shift + 2 - 1) = 2 * 2 ^ shift := by
        rw [Nat.add_sub_assoc (by decide), pow_succ, Nat.mul_comm]
      rw [units_eq, he, hf, if_neg (by omega), hp, hcarry]
      ring
    · have he : (shift * 2 ^ 52 + significand) / 2 ^ 52 = shift + 1 := by omega
      have hf : (shift * 2 ^ 52 + significand) % 2 ^ 52 = significand - 2 ^ 52 := by omega
      have hv : 2 ^ 52 + (significand - 2 ^ 52) = significand := by omega
      rw [units_eq, he, hf, if_neg (by omega), Nat.add_sub_cancel, hv]

/-- The leading 53 bits of a count are a significand for its shift. -/
theorem significand_bounds (count : Nat) :
    (count.log2 - 52 = 0 ∨ 2 ^ 52 ≤ count / 2 ^ (count.log2 - 52)) ∧
      count / 2 ^ (count.log2 - 52) < 2 ^ 53 := by
  have hpos : 0 < 2 ^ (count.log2 - 52) := Nat.two_pow_pos _
  constructor
  · by_cases hl : count.log2 ≤ 52
    · exact Or.inl (by omega)
    · have hc : count ≠ 0 := by
        rintro rfl
        exact hl (by rw [Nat.log2_zero]; omega)
      have hp : 2 ^ 52 * 2 ^ (count.log2 - 52) = 2 ^ count.log2 := by
        rw [← pow_add]
        congr 1
        omega
      refine Or.inr ((Nat.le_div_iff_mul_le hpos).mpr ?_)
      rw [hp]
      exact Nat.log2_self_le hc
  · have hp : 2 ^ (count.log2 + 1) ≤ 2 ^ 53 * 2 ^ (count.log2 - 52) := by
      rw [← pow_add]
      exact Nat.pow_le_pow_right (by decide) (by omega)
    exact (Nat.div_lt_iff_lt_mul hpos).mpr (Nat.lt_of_lt_of_le Nat.lt_log2_self hp)

/-- The pattern below a count has the magnitude of its leading bits. -/
theorem units_floorOfUnits (count : Nat) :
    units (floorOfUnits count) =
      count / 2 ^ (count.log2 - 52) * 2 ^ (count.log2 - 52) := by
  obtain ⟨hlow, hhigh⟩ := significand_bounds count
  exact units_shifted hlow hhigh.le

/-- The next pattern has one more in the last place. -/
theorem units_floorOfUnits_succ (count : Nat) :
    units (floorOfUnits count + 1) =
      (count / 2 ^ (count.log2 - 52) + 1) * 2 ^ (count.log2 - 52) := by
  obtain ⟨hlow, hhigh⟩ := significand_bounds count
  have hu := units_shifted (hlow.imp_right Nat.le_succ_of_le) (Nat.succ_le_of_lt hhigh)
  rw [Nat.succ_eq_add_one, ← Nat.add_assoc] at hu
  exact hu

/-- A count lies between the magnitude below it and the next one. -/
theorem floorOfUnits_bounds (count : Nat) :
    units (floorOfUnits count) ≤ count ∧ count < units (floorOfUnits count + 1) := by
  have hpos : 0 < 2 ^ (count.log2 - 52) := Nat.two_pow_pos _
  rw [units_floorOfUnits, units_floorOfUnits_succ]
  refine ⟨Nat.div_mul_le_self _ _, ?_⟩
  rw [Nat.mul_comm, Nat.mul_add, Nat.mul_one]
  exact Nat.lt_mul_div_succ count hpos

/-- Every pattern is the one below its own magnitude. -/
theorem floorOfUnits_units (pattern : Nat) : floorOfUnits (units pattern) = pattern := by
  by_cases hsmall : pattern < 2 ^ 52
  · rw [units_of_lt hsmall]
    have hl : pattern.log2 - 52 = 0 := by
      by_cases hz : pattern = 0
      · rw [hz, Nat.log2_zero]
      · have hlog := (Nat.log2_lt hz).mpr hsmall
        omega
    rw [floorOfUnits_eq, hl, Nat.zero_mul, pow_zero, Nat.div_one, Nat.zero_add]
  · have he : pattern / 2 ^ 52 ≠ 0 := by omega
    have hf : pattern % 2 ^ 52 < 2 ^ 52 := Nat.mod_lt _ (by decide)
    have hu : units pattern = (2 ^ 52 + pattern % 2 ^ 52) * 2 ^ (pattern / 2 ^ 52 - 1) := by
      rw [units_eq, if_neg he]
    have hpos : 0 < 2 ^ (pattern / 2 ^ 52 - 1) := Nat.two_pow_pos _
    have hl : (units pattern).log2 = 52 + (pattern / 2 ^ 52 - 1) := by
      rw [hu, Nat.log2_eq_iff (Nat.mul_pos (by omega) hpos).ne']
      constructor
      · rw [pow_add]
        exact Nat.mul_le_mul_right _ (by omega)
      · rw [Nat.add_assoc, Nat.add_comm _ 1, ← Nat.add_assoc, pow_add]
        exact (Nat.mul_lt_mul_right hpos).mpr (by omega)
    have hs : (units pattern).log2 - 52 = pattern / 2 ^ 52 - 1 := by omega
    have hd : units pattern / 2 ^ (pattern / 2 ^ 52 - 1) = 2 ^ 52 + pattern % 2 ^ 52 := by
      rw [hu, Nat.mul_div_cancel _ hpos]
    rw [floorOfUnits_eq, hs, hd]
    omega

/-- No pattern but zero has the magnitude zero. -/
theorem units_ne_zero {pattern : Nat} (h : pattern ≠ 0) : units pattern ≠ 0 := by
  intro hc
  have hf := floorOfUnits_units pattern
  rw [hc] at hf
  exact h (hf.symm.trans (by decide +kernel))

/-- Finite magnitudes are below `2 ^ 1024`. -/
theorem units_lt_of_lt_infinity {pattern : Nat} (h : pattern < infinity) :
    units pattern < 2 ^ 2098 := by
  have hf : pattern % 2 ^ 52 < 2 ^ 52 := Nat.mod_lt _ (by decide)
  have he : pattern / 2 ^ 52 < 2047 := by
    have hi : infinity = 2047 * 2 ^ 52 := by decide
    omega
  have hu : units pattern < 2 ^ 53 * 2 ^ (pattern / 2 ^ 52 - 1) := by
    by_cases hz : pattern / 2 ^ 52 = 0
    · rw [units_eq, if_pos hz, hz]
      omega
    · rw [units_eq, if_neg hz]
      exact (Nat.mul_lt_mul_right (Nat.two_pow_pos _)).mpr (by omega)
  refine Nat.lt_of_lt_of_le hu ?_
  rw [← pow_add]
  exact pow_le_pow_right₀ (by decide) (by omega)

/-- The pattern below a count of units under `2 ^ 1024` is finite. -/
theorem floorOfUnits_lt_infinity {count : Nat} (h : count < 2 ^ 2098) :
    floorOfUnits count < infinity := by
  have hi : infinity = 2047 * 2 ^ 52 := by decide
  have hs : count.log2 - 52 ≤ 2045 := by
    by_cases hz : count = 0
    · rw [hz, Nat.log2_zero]
      omega
    · have hl := (Nat.log2_lt hz).mpr h
      omega
  have hq := (significand_bounds count).2
  rw [floorOfUnits_eq, hi]
  omega

/-- A magnitude that is met exactly is its own rounding. -/
theorem nearest_of_units {numerator denominator pattern : Nat} (hd : 0 < denominator)
    (hp : pattern < infinity) (h : numerator * 2 ^ 1074 = units pattern * denominator) :
    nearest numerator denominator = pattern := by
  have hlt : ¬ 2 ^ 2098 * denominator ≤ units pattern * denominator :=
    Nat.not_le.mpr ((Nat.mul_lt_mul_right hd).mpr (units_lt_of_lt_infinity hp))
  have hnext : units pattern < units (pattern + 1) := by
    have hb := (floorOfUnits_bounds (units pattern)).2
    rwa [floorOfUnits_units] at hb
  have hmiddle : 2 * (units pattern * denominator) <
      (units pattern + units (pattern + 1)) * denominator := by
    rw [← Nat.mul_assoc]
    exact (Nat.mul_lt_mul_right hd).mpr (by omega)
  rw [← h] at hlt hmiddle
  rw [nearest_of_small hlt]
  simp only [h, Nat.mul_div_cancel _ hd, floorOfUnits_units]
  exact if_pos (h ▸ hmiddle)

/-- In the finite range rounding goes to the pattern below or to the next one. -/
theorem nearest_eq_or {numerator denominator : Nat}
    (h : ¬ 2 ^ 2098 * denominator ≤ numerator * 2 ^ 1074) :
    nearest numerator denominator = floorOfUnits (numerator * 2 ^ 1074 / denominator) ∨
      nearest numerator denominator =
        floorOfUnits (numerator * 2 ^ 1074 / denominator) + 1 := by
  rw [nearest_of_small h]
  simp only []
  generalize floorOfUnits (numerator * 2 ^ 1074 / denominator) = below
  split_ifs
  · exact Or.inl rfl
  · exact Or.inr rfl
  · exact Or.inl rfl
  · exact Or.inr rfl

/-- A whole number is rounded to infinity or to a whole number. -/
theorem nearest_whole (n : Nat) :
    nearest n 1 = infinity ∨
      nearest n 1 < infinity ∧ ∃ m, units (nearest n 1) = m * 2 ^ 1074 := by
  by_cases hlarge : 2 ^ 2098 * 1 ≤ n * 2 ^ 1074
  · exact Or.inl (nearest_of_large hlarge)
  have hlt : n * 2 ^ 1074 < 2 ^ 2098 := by
    rw [Nat.mul_one] at hlarge
    exact Nat.not_le.mp hlarge
  have hfinite := floorOfUnits_lt_infinity hlt
  by_cases hexact : units (floorOfUnits (n * 2 ^ 1074)) = n * 2 ^ 1074
  · have hn := nearest_of_units (by decide) hfinite (hexact.symm.trans (Nat.mul_one _).symm)
    rw [hn]
    exact Or.inr ⟨hfinite, n, hexact⟩
  -- Otherwise bits are lost below a shift of more than `1074`, and every magnitude
  -- of such a shift is whole.
  · have hshift : 1074 ≤ (n * 2 ^ 1074).log2 - 52 := by
      by_contra hc
      have hdvd : 2 ^ ((n * 2 ^ 1074).log2 - 52) ∣ n * 2 ^ 1074 :=
        Dvd.dvd.mul_left (pow_dvd_pow 2 (by omega)) n
      exact hexact (by rw [units_floorOfUnits, Nat.div_mul_cancel hdvd])
    obtain ⟨extra, he⟩ := Nat.exists_eq_add_of_le hshift
    have hbelow := units_floorOfUnits (n * 2 ^ 1074)
    have habove := units_floorOfUnits_succ (n * 2 ^ 1074)
    rw [he, pow_add, Nat.mul_comm (2 ^ 1074), ← Nat.mul_assoc] at hbelow habove
    have hcases := nearest_eq_or hlarge
    rw [Nat.div_one] at hcases
    rcases hcases with hc | hc
    · rw [hc]
      exact Or.inr ⟨hfinite, _, hbelow⟩
    · rw [hc]
      rcases Nat.lt_or_eq_of_le (Nat.succ_le_of_lt hfinite) with hs | hs
      · exact Or.inr ⟨hs, _, habove⟩
      · exact Or.inl hs

end PostfixArithmetic.BitPattern
