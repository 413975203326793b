import Mathlib
import PostfixArithmetic.Proofs.Number.Rounding

/-!
# Numbers and their bits

The units of a magnitude are the mantissa and the exponent that its number is unpacked
into. Every pattern is valid but the redundant ones of NaN, and a valid pattern survives
being read as a number and written back. So a magnitude up to infinity is that of the
number made from it, and every number is made from its sign and magnitude.
-/

namespace PostfixArithmetic.BitPattern

open Float.Model (Format UnpackedFloat)
open Float.Model.UnpackedFloat

/-- The exponent is what stands above the mantissa. -/
theorem toNat_unpackExponent (b : BitVec Format.binary64.numBits) :
    (unpackExponent b).toNat = b.toNat / 2 ^ 52 % 2 ^ 11 := by
  rw [unpackExponent_def, BitVec.extractLsb'_toNat, Nat.shiftRight_eq_div_pow]

/-- The mantissa is what stands below the exponent. -/
theorem toNat_unpackMantissa (b : BitVec Format.binary64.numBits) :
    (unpackMantissa b).toNat = b.toNat % 2 ^ 52 := by
  rw [unpackMantissa_def, BitVec.extractLsb'_toNat, Nat.shiftRight_zero]

/-- A magnitude has the exponent of its number. -/
theorem ofFloat_div (x : Float) :
    ofFloat x / 2 ^ 52 = (@unpackExponent Format.binary64 x.toBits.toBitVec).toNat := by
  rw [toNat_unpackExponent, UInt64.toNat_toBitVec, ofFloat, pow_eq_hpow]
  omega

/-- A magnitude has the mantissa of its number for its fraction. -/
theorem ofFloat_mod (x : Float) :
    ofFloat x % 2 ^ 52 = (@unpackMantissa Format.binary64 x.toBits.toBitVec).toNat := by
  rw [toNat_unpackMantissa, UInt64.toNat_toBitVec, ofFloat, pow_eq_hpow]
  omega

/-- The units of a finite number are its mantissa, scaled by its exponent. -/
theorem units_of_unpack {x : Float} {sign : Sign} {mantissa : Nat} {exponent : Int}
    {positive : 0 < mantissa}
    (h : x.toModel.unpack = .finite sign mantissa exponent positive) :
    -1074 ≤ exponent ∧ units (ofFloat x) = mantissa * 2 ^ (exponent + 1074).toNat := by
  have hbias : (Format.binary64.exponentBias : Int) = 1023 := by decide
  rw [units_eq, ofFloat_div, ofFloat_mod]
  change unpack Format.binary64 x.toBits.toBitVec = _ at h
  simp only [unpack, hbias] at h
  split at h
  · split at h <;> cases h
  · rename_i hones
    split at h
    · rename_i hz
      split at h
      · cases h
      · injection h with _ hm he
        rw [hz, BitVec.toNat_zero] at he
        have he : exponent = -1074 := he.symm
        rw [hz, BitVec.toNat_zero, if_pos rfl, he, hm]
        exact ⟨le_refl _, (Nat.mul_one _).symm⟩
    · rename_i hz
      injection h with _ hm he
      have hne : (@unpackExponent Format.binary64 x.toBits.toBitVec).toNat ≠ 0 :=
        fun hc => hz (BitVec.eq_of_toNat_eq hc)
      have hs : (exponent + 1074).toNat =
          (@unpackExponent Format.binary64 x.toBits.toBitVec).toNat - 1 := by
        rw [← he]
        omega
      rw [if_neg hne, hs, ← hm, BitVec.toNat_append,
        ← Nat.shiftLeft_add_eq_or_of_lt (BitVec.isLt _)]
      exact ⟨by omega, rfl⟩

/-- Valid bits are those of the number read from them. -/
theorem toBits_ofBits {bits : UInt64} (h : Format.binary64.Valid bits.toBitVec) :
    (Float.ofBits bits).toBits = bits :=
  UInt64.toBitVec_inj.mp (pack_unpack_of_valid h)

/-- A signed magnitude in 64 bits. -/
theorem toNat_signed {pattern : Nat} (h : pattern ≤ infinity) (negative : Bool) :
    (UInt64.ofNat (if negative then 2 ^ 63 + pattern else pattern)).toNat =
      if negative then 2 ^ 63 + pattern else pattern := by
  have hi : infinity < 2 ^ 63 := by decide
  rw [UInt64.toNat_ofNat']
  apply Nat.mod_eq_of_lt
  split <;> omega

/-- Magnitudes up to infinity are valid with either sign. -/
theorem valid_signed {pattern : Nat} (h : pattern ≤ infinity) (negative : Bool) :
    Format.binary64.Valid
      (UInt64.ofNat (if negative then 2 ^ 63 + pattern else pattern)).toBitVec := by
  have hi : infinity = 2047 * 2 ^ 52 := by decide
  have hn := toNat_signed h negative
  refine ⟨fun he hm => absurd (BitVec.eq_of_toNat_eq ?_) hm⟩
  have hexp := toNat_unpackExponent
    (UInt64.ofNat (if negative then 2 ^ 63 + pattern else pattern)).toBitVec
  have hones : (-1#11).toNat = 2047 := by decide
  rw [he, hones, UInt64.toNat_toBitVec, hn] at hexp
  rw [toNat_unpackMantissa, UInt64.toNat_toBitVec, hn, BitVec.toNat_zero]
  cases negative with
  | false =>
    simp only [Bool.false_eq_true, if_false] at hexp ⊢
    omega
  | true =>
    simp only [if_true] at hexp ⊢
    omega

/-- The bits of a signed magnitude. -/
theorem toNat_toBits_toFloat {pattern : Nat} (h : pattern ≤ infinity) (negative : Bool) :
    (toFloat negative pattern).toBits.toNat =
      if negative then 2 ^ 63 + pattern else pattern := by
  rw [toFloat, pow_eq_hpow, toBits_ofBits (valid_signed h negative), toNat_signed h negative]

/-- Up to infinity, every magnitude is that of the number made from it. -/
theorem ofFloat_toFloat {pattern : Nat} (h : pattern ≤ infinity) (negative : Bool) :
    ofFloat (toFloat negative pattern) = pattern := by
  have hi : infinity < 2 ^ 63 := by decide
  rw [ofFloat, toNat_toBits_toFloat h, pow_eq_hpow]
  split <;> omega

/-- Up to infinity, a number has the sign that it is made with. -/
theorem isNegative_toFloat {pattern : Nat} (h : pattern ≤ infinity) (negative : Bool) :
    isNegative (toFloat negative pattern) = negative := by
  have hi : infinity < 2 ^ 63 := by decide
  rw [isNegative, toNat_toBits_toFloat h, pow_eq_hpow]
  cases negative with
  | false => exact decide_eq_false (by simp only [Bool.false_eq_true, if_false]; omega)
  | true => exact decide_eq_true (by simp only [if_true]; omega)

/-- A number is the one that is made from its bits. -/
theorem eq_toFloat {x : Float} {negative : Bool} {pattern : Nat}
    (h : x.toBits.toNat = if negative then 2 ^ 63 + pattern else pattern) :
    x = toFloat negative pattern := by
  rw [toFloat, pow_eq_hpow, ← h, UInt64.ofNat_toNat, Float.ofBits_toBits]

/-- Every number is made from its sign and its magnitude. -/
theorem toFloat_ofFloat (x : Float) : toFloat (isNegative x) (ofFloat x) = x := by
  have hb : x.toBits.toNat < 2 ^ 64 := x.toBits.toNat_lt
  refine (eq_toFloat ?_).symm
  rw [isNegative, ofFloat, pow_eq_hpow]
  split
  · rename_i hneg
    have hle := of_decide_eq_true hneg
    omega
  · rename_i hpos
    have hlt : ¬ 2 ^ 63 ≤ x.toBits.toNat := fun hc => hpos (decide_eq_true hc)
    omega

/-- Beyond infinity there is one number only, a not-a-number without a sign. -/
theorem toFloat_nan {x : Float} (h : infinity < ofFloat x) : toFloat false nan = x := by
  have hi : infinity = 2047 * 2 ^ 52 := by decide
  have hx := ofFloat_lt x
  have hdiv := ofFloat_div x
  have hmod := ofFloat_mod x
  rw [pow_eq_hpow] at hx
  have hones : (-1#11).toNat = 2047 := by decide
  have hexponent : @unpackExponent Format.binary64 x.toBits.toBitVec = -1#11 := by
    refine BitVec.eq_of_toNat_eq ?_
    rw [← hdiv, hones]
    omega
  have hmantissa : @unpackMantissa Format.binary64 x.toBits.toBitVec ≠ 0#52 := by
    intro hc
    rw [hc, BitVec.toNat_zero] at hmod
    omega
  have hbits := x.toModel.valid.eq_packedNaN hexponent hmantissa
  have hnan : x.toBits = UInt64.ofNat nan := UInt64.toBitVec_inj.mp (hbits.trans (by decide))
  rw [toFloat, if_neg Bool.false_ne_true, ← hnan, Float.ofBits_toBits]

end PostfixArithmetic.BitPattern
