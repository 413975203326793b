import PostfixArithmetic.Proofs.Number.Digits

/-!
# Integers among the numbers

A number may be an integer, and then both zeros are the integer zero. An integer other
than zero of at most `2 ^ 53` has a single form as an unpacked number: its significand
fills all 53 bits and its exponent makes up for the shift. Such numbers are unpacked
into their form, and the form is packed into such a number.
-/

namespace PostfixArithmetic

open Float.Model (Format UnpackedFloat)
open Float.Model.UnpackedFloat

/-- A number is the integer `n`: it is finite, has no fraction, and has the sign of `n`.
A zero may have either sign. -/
structure IsInteger (x : Float) (n : Int) : Prop where
  /-- The magnitude is finite. -/
  finite : BitPattern.ofFloat x < BitPattern.infinity
  /-- The magnitude is that of `n`. -/
  whole : BitPattern.units (BitPattern.ofFloat x) = n.natAbs * 2 ^ 1074
  /-- Apart from zero, the sign bit is set for negative integers. -/
  signed : n ≠ 0 → (BitPattern.isNegative x = true ↔ n < 0)

/-- A natural number is an integer. -/
theorem IsNatural.isInteger {x : Float} {n : Nat} (h : IsNatural x n) : IsInteger x n := by
  refine ⟨h.finite, h.whole, fun _ => iff_of_false ?_ (Int.natCast_nonneg n).not_gt⟩
  rw [h.positive]
  exact Bool.false_ne_true

/-- Zeros behind a number move its leading bit. -/
theorem log2_mul_two_pow {m : Nat} (hm : m ≠ 0) (i : Nat) : (m * 2 ^ i).log2 = m.log2 + i := by
  have hpos : 0 < 2 ^ i := Nat.two_pow_pos i
  rw [Nat.log2_eq_iff (Nat.mul_ne_zero hm hpos.ne'), Nat.add_right_comm, pow_add, pow_add]
  exact ⟨Nat.mul_le_mul_right _ (Nat.log2_self_le hm),
    (Nat.mul_lt_mul_right hpos).mpr Nat.lt_log2_self⟩

/-- The natural number `n` as a significand of 53 bits with the exponent `j`. -/
structure Significand (n q j : Nat) : Prop where
  /-- There are 53 bits, and the leading one is set. -/
  leading : q.log2 = 52
  /-- The exponent is that of an integer up to `2 ^ 53`. -/
  small : j ≤ 53
  /-- The significand with its exponent is `n`. -/
  value : q * 2 ^ j = n * 2 ^ 52

namespace Significand

/-- Zero has no leading bit. -/
theorem ne_zero_of_leading {q : Nat} (h : q.log2 = 52) : q ≠ 0 := by
  rintro rfl
  rw [Nat.log2_zero] at h
  omega

/-- The bounds of a significand. -/
theorem bounds_of_leading {q : Nat} (h : q.log2 = 52) : 2 ^ 52 ≤ q ∧ q < 2 ^ 53 :=
  (Nat.log2_eq_iff (ne_zero_of_leading h)).mp h

/-- Positive integers up to `2 ^ 53` have a significand. -/
theorem exists_of_le {n : Nat} (hpos : 0 < n) (hle : n ≤ 2 ^ 53) : ∃ q j, Significand n q j := by
  by_cases htop : n = 2 ^ 53
  · exact ⟨2 ^ 52, 53, Nat.log2_two_pow, le_refl _, by rw [htop, ← pow_add, ← pow_add]⟩
  · have hlog : n.log2 ≤ 52 := Nat.lt_succ_iff.mp ((Nat.log2_lt hpos.ne').mpr (by omega))
    refine ⟨n * 2 ^ (52 - n.log2), n.log2, ?_, by omega, ?_⟩
    · rw [log2_mul_two_pow hpos.ne']
      omega
    · rw [Nat.mul_assoc, ← pow_add, Nat.sub_add_cancel hlog]

/-- A significand is not zero. -/
theorem significand_pos {n q j : Nat} (h : Significand n q j) : 0 < q :=
  Nat.pos_of_ne_zero (ne_zero_of_leading h.leading)

/-- Zero has no significand. -/
theorem pos {n q j : Nat} (h : Significand n q j) : 0 < n := by
  have hq : 0 < q * 2 ^ j := Nat.mul_pos h.significand_pos (Nat.two_pow_pos j)
  rw [h.value] at hq
  exact Nat.pos_of_mul_pos_right hq

end Significand

/-- The forms of an integer of at most `2 ^ 53` as an unpacked number. -/
inductive Represents : UnpackedFloat → Int → Prop where
  /-- Zero has either sign. -/
  | zero (sign : Sign) : Represents (.zero sign) 0
  /-- All other integers have a significand of 53 bits. -/
  | finite (sign : Sign) {n q j : Nat} (h : Significand n q j) :
    Represents (.finite sign q (j - 52) h.significand_pos) (sign.apply n)

namespace BitPattern

/-- The sign of a number is its leading bit. -/
theorem isNegative_iff (x : Float) :
    isNegative x = true ↔
      Sign.ofBitVec (@unpackSign Format.binary64 x.toBits.toBitVec) = .negative := by
  have hb : x.toBits.toNat < 2 ^ 64 := x.toBits.toNat_lt
  have hs : (@unpackSign Format.binary64 x.toBits.toBitVec).toNat = x.toBits.toNat / 2 ^ 63 := by
    rw [unpackSign_def, BitVec.extractLsb'_toNat, Nat.shiftRight_eq_div_pow,
      UInt64.toNat_toBitVec]
    change x.toBits.toNat / 2 ^ 63 % 2 ^ 1 = _
    omega
  rw [isNegative, pow_eq_hpow, decide_eq_true_eq, Sign.ofBitVec]
  split
  · rename_i hz
    rw [hz, BitVec.toNat_zero] at hs
    exact iff_of_false (by omega) (by simp)
  · rename_i hz
    have hne : (@unpackSign Format.binary64 x.toBits.toBitVec).toNat ≠ 0 :=
      fun hc => hz (BitVec.eq_of_toNat_eq hc)
    exact iff_of_true (by omega) rfl

/-- A number that is unpacked into a mantissa is finite and has the sign that is unpacked. -/
theorem finite_of_unpack {x : Float} {sign : Sign} {mantissa : Nat} {exponent : Int}
    {positive : 0 < mantissa}
    (h : x.toModel.unpack = .finite sign mantissa exponent positive) :
    ofFloat x < infinity ∧ (isNegative x = true ↔ sign = .negative) := by
  have hi : infinity = 2047 * 2 ^ 52 := by decide
  have hb := (@unpackExponent Format.binary64 x.toBits.toBitVec).isLt
  rw [isNegative_iff]
  change unpack Format.binary64 x.toBits.toBitVec = _ at h
  simp only [unpack] at h
  split at h
  · split at h <;> cases h
  · rename_i hones
    have hne : (@unpackExponent Format.binary64 x.toBits.toBitVec).toNat ≠ 2047 :=
      fun hc => hones (BitVec.eq_of_toNat_eq hc)
    have hlt : (@unpackExponent Format.binary64 x.toBits.toBitVec).toNat < 2 ^ 11 := hb
    have hdiv := ofFloat_div x
    refine ⟨by omega, ?_⟩
    split at h
    · split at h
      · cases h
      · injection h with hs
        rw [hs]
    · injection h with hs
      rw [hs]

/-- A significand of 53 bits with an exponent in range survives packing. -/
theorem unpack_pack {q : Nat} (h : q.log2 = 52) {e : Int} (hmin : -1074 ≤ e) (hmax : e ≤ 971)
    (sign : Sign) (hq : 0 < q) :
    (Float.Model.pack (.finite sign q e hq)).unpack = .finite sign q e hq := by
  obtain ⟨hlow, hhigh⟩ := Significand.bounds_of_leading h
  have hbias : (Format.binary64.exponentBias : Int) = 1023 := by decide
  have hbits : q.log2 + 1 = Format.binary64.mantissaBits := by
    rw [h]
    rfl
  have hexp : (BitVec.ofNat 11 (e + 1023 + (52 : Nat)).toNat).toNat = (e + 1075).toNat := by
    rw [BitVec.toNat_ofNat]
    omega
  have hmantissa : (1#1 ++ BitVec.ofNat 52 q).toNat = q := by
    rw [BitVec.toNat_append, ← Nat.shiftLeft_add_eq_or_of_lt (BitVec.isLt _), BitVec.toNat_ofNat,
      BitVec.toNat_ofNat, Nat.shiftLeft_eq]
    omega
  have hones : BitVec.ofNat 11 (e + 1023 + (52 : Nat)).toNat ≠ -1#11 := by
    intro hc
    have ht := congrArg BitVec.toNat hc
    rw [hexp] at ht
    change _ = 2047 at ht
    omega
  have hzero : BitVec.ofNat 11 (e + 1023 + (52 : Nat)).toNat ≠ 0#11 := by
    intro hc
    have ht := congrArg BitVec.toNat hc
    rw [hexp, BitVec.toNat_zero] at ht
    omega
  have hpack : pack Format.binary64 (.finite sign q e hq) =
      packComponents Format.binary64 sign (BitVec.ofNat 11 (e + 1023 + (52 : Nat)).toNat)
        (BitVec.ofNat 52 q) := by
    simp only [pack, hbias, hbits, if_true]
    exact if_neg (by omega)
  change unpack Format.binary64 (pack Format.binary64 _) = _
  rw [hpack]
  simp only [unpack, hbias, unpackExponent_packComponents, unpackMantissa_packComponents,
    unpackSign_packComponents, Sign.ofBitVec_toBitVec, hexp, hmantissa, if_neg hones, if_neg hzero]
  congr 1
  omega

end BitPattern

/-- The sign of an integer apart from zero is the sign put in front of its magnitude. -/
theorem apply_neg_iff {n : Nat} (hpos : 0 < n) (sign : Sign) :
    sign.apply n < 0 ↔ sign = .negative := by
  cases sign with
  | negative => exact iff_of_true (Int.neg_neg_of_pos (Int.natCast_pos.mpr hpos)) rfl
  | positive => exact iff_of_false (Int.natCast_nonneg n).not_gt (by simp)

/-- A sign does not change the magnitude. -/
theorem natAbs_apply (n : Nat) (sign : Sign) : (sign.apply n).natAbs = n := by
  cases sign with
  | negative => exact Int.natAbs_neg n
  | positive => exact Int.natAbs_natCast n

/-- Every integer is its magnitude with a sign. -/
theorem exists_apply_natAbs (n : Int) : ∃ sign : Sign, sign.apply n.natAbs = n := by
  rcases Int.natAbs_eq n with h | h
  · exact ⟨.positive, h.symm⟩
  · exact ⟨.negative, h.symm⟩

/-- The form of an integer is packed into that integer. -/
theorem Represents.isInteger {u : UnpackedFloat} {n : Int} (h : Represents u n) :
    IsInteger (.ofModel (.pack u)) n := by
  cases h with
  | zero sign =>
    cases sign with
    | negative => exact ⟨by decide +kernel, by decide +kernel, fun h => absurd rfl h⟩
    | positive => exact ⟨by decide +kernel, by decide +kernel, fun h => absurd rfl h⟩
  | @finite sign n q j h =>
    have hj := h.small
    have hu : (Float.ofModel (.pack (.finite sign q (j - 52) h.significand_pos))).toModel.unpack =
        .finite sign q (j - 52) h.significand_pos :=
      BitPattern.unpack_pack h.leading (by omega) (by omega) sign h.significand_pos
    obtain ⟨hfinite, hsign⟩ := BitPattern.finite_of_unpack hu
    have hunits := (BitPattern.units_of_unpack hu).2
    have hshift : ((j : Int) - 52 + 1074).toNat = j + 1022 := by omega
    refine ⟨hfinite, ?_, fun _ => hsign.trans (apply_neg_iff h.pos sign).symm⟩
    rw [hunits, hshift, natAbs_apply, pow_add, ← Nat.mul_assoc, h.value, Nat.mul_assoc, ← pow_add]

/-- Two numbers with the same sign and the same magnitude are the same. -/
theorem BitPattern.eq_of_units {x y : Float} (hs : isNegative x = isNegative y)
    (hu : units (ofFloat x) = units (ofFloat y)) : x = y := by
  have hp := congrArg floorOfUnits hu
  rw [floorOfUnits_units, floorOfUnits_units] at hp
  rw [← toFloat_ofFloat x, ← toFloat_ofFloat y, hs, hp]

/-- An integer other than zero is a single number. -/
theorem IsInteger.eq {x y : Float} {n : Int} (hx : IsInteger x n) (hy : IsInteger y n)
    (hn : n ≠ 0) : x = y := by
  have hs : BitPattern.isNegative x = BitPattern.isNegative y :=
    Bool.eq_iff_iff.mpr ((hx.signed hn).trans (hy.signed hn).symm)
  exact BitPattern.eq_of_units hs (hx.whole.trans hy.whole.symm)

/-- The integer zero is one of the two zeros. -/
theorem IsInteger.exists_unpack_zero {x : Float} (h : IsInteger x 0) :
    ∃ sign, x.toModel.unpack = .zero sign := by
  have hu := h.whole
  have hp : BitPattern.ofFloat x = 0 := by
    rw [← BitPattern.floorOfUnits_units (BitPattern.ofFloat x), hu, Int.natAbs_zero, Nat.zero_mul]
    decide +kernel
  rw [← BitPattern.toFloat_ofFloat x, hp]
  cases BitPattern.isNegative x with
  | true => exact ⟨.negative, rfl⟩
  | false => exact ⟨.positive, rfl⟩

/-- An integer of at most `2 ^ 53` is unpacked into its form. -/
theorem IsInteger.represents {x : Float} {n : Int} (h : IsInteger x n) (hn : n.natAbs ≤ 2 ^ 53) :
    Represents x.toModel.unpack n := by
  by_cases hz : n = 0
  · subst hz
    obtain ⟨sign, hu⟩ := h.exists_unpack_zero
    rw [hu]
    exact .zero sign
  · obtain ⟨sign, hsign⟩ := exists_apply_natAbs n
    obtain ⟨q, j, hq⟩ := Significand.exists_of_le (Int.natAbs_pos.mpr hz) hn
    have hj := hq.small
    have hr := Represents.finite sign hq
    rw [hsign] at hr
    have hu := BitPattern.unpack_pack hq.leading (by omega : -1074 ≤ (j : Int) - 52) (by omega)
      sign hq.significand_pos
    rw [h.eq hr.isInteger hz]
    change Represents (Float.Model.pack _).unpack n
    rw [hu]
    exact hr

/-- Natural numbers up to `2 ^ 53` are among the numbers. -/
theorem exists_isNatural {n : Nat} (hn : n ≤ 2 ^ 53) : ∃ x, IsNatural x n := by
  by_cases hz : n = 0
  · subst hz
    exact ⟨0, by decide +kernel, by decide +kernel, by decide +kernel⟩
  · have hpos : 0 < n := Nat.pos_of_ne_zero hz
    obtain ⟨q, j, hq⟩ := Significand.exists_of_le hpos hn
    have hi := (Represents.finite .positive hq).isInteger
    have hs : ¬ (Sign.positive.apply n : Int) < 0 := (Int.natCast_nonneg n).not_gt
    have hsigned := (hi.signed (Int.natCast_ne_zero.mpr hz)).not.mpr hs
    exact ⟨_, Bool.eq_false_iff.mpr hsigned, hi.finite, hi.whole⟩

/-- A natural number up to `2 ^ 53` is read as that integer. -/
theorem Decimal.isInteger_pattern {n : Nat} (hn : n ≤ 2 ^ 53) :
    IsInteger (BitPattern.toFloat false (pattern ⟨n, 0⟩)) n := by
  obtain ⟨x, hx⟩ := exists_isNatural hn
  have hsame := BitPattern.toFloat_ofFloat x
  rw [hx.positive] at hsame
  rw [pattern_of_units hx.finite hx.whole, hsame]
  exact hx.isInteger

end PostfixArithmetic
