import PostfixArithmetic.Proofs.Number.Exactness
import PostfixArithmetic.Proofs.Number.Nearest

/-!
# Quotients of finite numbers

A quotient is computed from a mantissa with two bits behind it, which tell how what is left
compares with one half. Shifting keeps what the three stand for, so that they are rounded
as the exact quotient is. The result is packed into the pattern that counts its shift and
its rounded mantissa, and from `2 ^ 1024` on into infinity. So a quotient of finite numbers
is the magnitude nearest to the exact quotient, with the sign that the signs make.
-/

namespace PostfixArithmetic.BitPattern

open Float.Model (Format UnpackedFloat totalExponent)
open Float.Model.UnpackedFloat

/-- A mantissa with its two bits stands for a fraction: the round bit tells that at least
one half is left, and the sticky bit that neither nothing nor just one half is left. -/
structure StandsFor (extended : ExtendedMantissa) (numerator denominator : Nat) : Prop where
  /-- The mantissa is the whole part. -/
  mantissa_eq : extended.mantissa = numerator / denominator
  /-- The round bit is about one half. -/
  roundBit_iff : extended.roundBit = true ↔ denominator ≤ 2 * (numerator % denominator)
  /-- The sticky bit is about the rest. -/
  stickyBit_iff : extended.stickyBit = true ↔
    numerator % denominator ≠ 0 ∧ 2 * (numerator % denominator) ≠ denominator

/-- A quotient with its accuracy stands for its fraction. -/
theorem standsFor_accuracyOfFraction (numerator : Nat) {denominator : Nat}
    (hd : 0 < denominator) :
    StandsFor (ExtendedMantissa.ofMantissaAndAccuracy (numerator / denominator)
      (accuracyOfFraction (numerator % denominator) denominator)) numerator denominator := by
  rw [accuracyOfFraction]
  by_cases hz : numerator % denominator = 0
  · rw [if_pos hz]
    exact ⟨rfl, iff_of_false Bool.false_ne_true (by omega),
      iff_of_false Bool.false_ne_true fun h => h.1 hz⟩
  · rw [if_neg hz]
    rcases Nat.lt_trichotomy (2 * (numerator % denominator)) denominator with h | h | h
    · rw [Nat.compare_eq_lt.mpr h]
      exact ⟨rfl, iff_of_false Bool.false_ne_true (by omega), iff_of_true rfl ⟨hz, h.ne⟩⟩
    · rw [Nat.compare_eq_eq.mpr h]
      exact ⟨rfl, iff_of_true rfl h.ge, iff_of_false Bool.false_ne_true fun hs => hs.2 h⟩
    · rw [Nat.compare_eq_gt.mpr h]
      exact ⟨rfl, iff_of_true rfl h.le, iff_of_true rfl ⟨hz, h.ne'⟩⟩

namespace StandsFor

variable {extended : ExtendedMantissa} {numerator denominator : Nat}

/-- A shift by one bit halves what is stood for. -/
theorem shiftRightOne (h : StandsFor extended numerator denominator) (hd : 0 < denominator) :
    StandsFor extended.shiftRightOne numerator (denominator * 2) := by
  obtain ⟨hmantissa, hround, hsticky⟩ := h
  have hlt := Nat.mod_lt numerator hd
  have hmod : numerator % (denominator * 2) =
      numerator % denominator + denominator * (numerator / denominator % 2) := Nat.mod_mul
  refine ⟨?_, ?_, ?_⟩
  · rw [ExtendedMantissa.shiftRightOne, hmantissa, Nat.div_div_eq_div_mul]
  · rw [ExtendedMantissa.shiftRightOne, hmantissa, hmod, bne_iff_ne]
    rcases Nat.mod_two_eq_zero_or_one (numerator / denominator) with hbit | hbit
    · rw [hbit]
      omega
    · rw [hbit]
      omega
  · rw [ExtendedMantissa.shiftRightOne, Bool.or_eq_true, hround, hsticky, hmod]
    rcases Nat.mod_two_eq_zero_or_one (numerator / denominator) with hbit | hbit
    · rw [hbit]
      omega
    · rw [hbit]
      omega

/-- A shift divides by a power of two. -/
theorem shiftRight (h : StandsFor extended numerator denominator) (hd : 0 < denominator)
    (k : Nat) : StandsFor (extended >>> k) numerator (denominator * 2 ^ k) := by
  change StandsFor (k.repeat ExtendedMantissa.shiftRightOne extended) _ _
  induction k with
  | zero => rwa [pow_zero, Nat.mul_one]
  | succ k ih =>
    rw [pow_succ, ← Nat.mul_assoc]
    exact ih.shiftRightOne (Nat.mul_pos hd (Nat.two_pow_pos k))

/-- Rounding by the two bits is rounding of the fraction. -/
theorem roundedMantissa (h : StandsFor extended numerator denominator) :
    extended.roundedMantissa = roundEven numerator denominator := by
  obtain ⟨mantissa, roundBit, stickyBit⟩ := extended
  obtain ⟨hmantissa, hround, hsticky⟩ := h
  simp only at hmantissa hround hsticky
  rw [roundEven, ← hmantissa]
  cases roundBit with
  | false =>
    have hless : ¬ denominator ≤ 2 * (numerator % denominator) :=
      fun hc => Bool.false_ne_true (hround.mpr hc)
    rw [if_pos (Nat.not_le.mp hless)]
    cases stickyBit <;> rfl
  | true =>
    have hmore : denominator ≤ 2 * (numerator % denominator) := hround.mp rfl
    rw [if_neg (Nat.not_lt.mpr hmore)]
    cases stickyBit with
    | false =>
      have hhalf : ¬ (numerator % denominator ≠ 0 ∧
          2 * (numerator % denominator) ≠ denominator) :=
        fun hc => Bool.false_ne_true (hsticky.mpr hc)
      rw [if_neg (by omega)]
      rfl
    | true =>
      have hne := (hsticky.mp rfl).2
      rw [if_pos (by omega)]
      rfl

end StandsFor

/-- Whether a sign is the negative one. -/
def isMinus : Sign → Bool
  | .negative => true
  | .positive => false

/-- A quotient is negative if one of the two numbers is and the other is not. -/
theorem isMinus_div (s t : Sign) : isMinus (s / t) = (isMinus s ^^ isMinus t) := by
  cases s <;> cases t <;> rfl

/-- Two signs are told apart by being negative. -/
theorem eq_negative_iff (sign : Sign) : sign = .negative ↔ isMinus sign = true := by
  cases sign with
  | negative => exact iff_of_true rfl rfl
  | positive => exact iff_of_false (by simp) Bool.false_ne_true

/-- Sign, exponent and mantissa stand side by side. -/
theorem ofModel_pack {u : UnpackedFloat} {sign : Sign} {exponent : BitVec 11}
    {mantissa : BitVec 52} {pattern : Nat}
    (h : UnpackedFloat.pack Format.binary64 u =
      packComponents Format.binary64 sign exponent mantissa)
    (hp : exponent.toNat * 2 ^ 52 + mantissa.toNat = pattern) :
    Float.ofModel (.pack u) = toFloat (isMinus sign) pattern := by
  have hexponent : exponent.toNat < 2 ^ 11 := exponent.isLt
  have hmantissa : mantissa.toNat < 2 ^ 52 := mantissa.isLt
  have hsign : sign.toBitVec.toNat = if isMinus sign then 1 else 0 := by
    cases sign <;> rfl
  refine eq_toFloat (Eq.trans (congrArg BitVec.toNat h) ?_)
  rw [packComponents, BitVec.toNat_append, BitVec.toNat_append,
    ← Nat.shiftLeft_add_eq_or_of_lt hmantissa, ← Nat.shiftLeft_add_eq_or_of_lt hexponent,
    Nat.shiftLeft_eq, Nat.shiftLeft_eq, hsign]
  subst hp
  split_ifs <;> ring

/-- Zero is packed into the least pattern. -/
theorem ofModel_pack_zero (sign : Sign) :
    Float.ofModel (.pack (.zero sign)) = toFloat (isMinus sign) 0 := by
  have hpack : UnpackedFloat.pack Format.binary64 (.zero sign) =
      packComponents Format.binary64 sign 0#11 0#52 := rfl
  exact ofModel_pack hpack (by decide)

/-- Infinity is packed into its pattern. -/
theorem ofModel_pack_infinity (sign : Sign) :
    Float.ofModel (.pack (.infinity sign)) = toFloat (isMinus sign) infinity := by
  have hpack : UnpackedFloat.pack Format.binary64 (.infinity sign) =
      packComponents Format.binary64 sign (-1#11) 0#52 := rfl
  exact ofModel_pack hpack (by decide)

/-- A mantissa with a shift is packed into the pattern that counts them, up to infinity. -/
theorem ofModel_pack_finite {mantissa shift : Nat} {exponent : Int} (sign : Sign)
    (hpos : 0 < mantissa) (hexponent : exponent = shift - 1074) (hhigh : mantissa < 2 ^ 53)
    (hlow : shift = 0 ∨ 2 ^ 52 ≤ mantissa) :
    Float.ofModel (.pack (.finite sign mantissa exponent hpos)) =
      toFloat (isMinus sign) (min infinity (shift * 2 ^ 52 + mantissa)) := by
  have hbias : (Format.binary64.exponentBias : Int) = 1023 := by decide
  have hinfinity : infinity = 2047 * 2 ^ 52 := by decide
  have hbiased : (exponent + 1023 + (52 : Nat)).toNat = shift + 1 := by omega
  have hbits : mantissa.log2 + 1 = Format.binary64.mantissaBits ↔ 2 ^ 52 ≤ mantissa := by
    have hlog := (Nat.log2_lt hpos.ne').mpr hhigh
    have hle := Nat.le_log2 (k := 52) hpos.ne'
    change mantissa.log2 + 1 = 53 ↔ _
    omega
  by_cases hlarge : 2 ^ 11 ≤ shift + 1 + 1
  · have hpack : UnpackedFloat.pack Format.binary64 (.finite sign mantissa exponent hpos) =
        packComponents Format.binary64 sign (-1#11) 0#52 := by
      simp only [UnpackedFloat.pack, hbias, hbiased]
      exact if_pos hlarge
    rw [Nat.min_eq_left (by omega)]
    exact ofModel_pack hpack (by decide)
  · rw [Nat.min_eq_right (by omega)]
    have hmantissa : (BitVec.ofNat 52 mantissa).toNat = mantissa % 2 ^ 52 := BitVec.toNat_ofNat ..
    by_cases hnormal : 2 ^ 52 ≤ mantissa
    · have hpack : UnpackedFloat.pack Format.binary64 (.finite sign mantissa exponent hpos) =
          packComponents Format.binary64 sign (BitVec.ofNat 11 (shift + 1))
            (BitVec.ofNat 52 mantissa) := by
        simp only [UnpackedFloat.pack, hbias, hbiased, if_pos (hbits.mpr hnormal)]
        exact if_neg hlarge
      refine ofModel_pack hpack ?_
      rw [hmantissa, BitVec.toNat_ofNat]
      omega
    · have hpack : UnpackedFloat.pack Format.binary64 (.finite sign mantissa exponent hpos) =
          packComponents Format.binary64 sign 0#11 (BitVec.ofNat 52 mantissa) := by
        simp only [UnpackedFloat.pack, hbias, hbiased, if_neg (hbits.not.mpr hnormal)]
        exact if_neg hlarge
      refine ofModel_pack hpack ?_
      rw [hmantissa, BitVec.toNat_zero]
      omega

/-- A rounded mantissa that did not carry keeps its exponent. -/
theorem shiftToTargetExponent_of_lt {mantissa shift : Nat} {exponent : Int}
    (hexponent : exponent = shift - 1074) (hhigh : mantissa < 2 ^ 53)
    (hlow : shift = 0 ∨ 2 ^ 52 ≤ mantissa) :
    shiftToTargetExponent Format.binary64 mantissa exponent .exact =
      (⟨mantissa, false, false⟩, exponent) := by
  have hlog : mantissa.log2 ≤ 52 := by
    rcases Nat.eq_zero_or_pos mantissa with rfl | hpos
    · rw [Nat.log2_zero]
      omega
    · have hlt := (Nat.log2_lt hpos.ne').mpr hhigh
      omega
  have htarget : (Format.binary64.targetExponent (totalExponent mantissa exponent) -
      exponent).toNat = 0 := by
    rw [targetExponent_eq, totalExponent]
    omega
  simp only [shiftToTargetExponent, shiftToExponent, htarget]
  exact congrArg _ (Int.add_zero exponent)

/-- A rounded mantissa that carried loses a bit. -/
theorem shiftToTargetExponent_of_carry {shift : Nat} {exponent : Int}
    (hexponent : exponent = shift - 1074) :
    shiftToTargetExponent Format.binary64 (2 ^ 53) exponent .exact =
      (⟨2 ^ 52, false, false⟩, exponent + 1) :=
  shiftToTargetExponent_mul_two_pow Nat.log2_two_pow 1 (by omega)

/-- What is rounded from a mantissa in range is packed into the pattern that counts the
shift and the rounded mantissa, whether rounding carries or not. -/
theorem ofModel_pack_rounded {mantissa rounded shift : Nat} {exponent first : Int}
    {accuracy : Accuracy} {extended : ExtendedMantissa} (sign : Sign)
    (hextended : shiftToTargetExponent Format.binary64 mantissa exponent accuracy =
      (extended, first))
    (hrounded : extended.roundedMantissa = rounded) (hfirst : first = shift - 1074)
    (hhigh : rounded ≤ 2 ^ 53) (hlow : shift = 0 ∨ 2 ^ 52 ≤ rounded) :
    Float.ofModel
        (.pack (roundWithAccuracy Format.binary64 sign mantissa exponent accuracy)) =
      toFloat (isMinus sign) (min infinity (shift * 2 ^ 52 + rounded)) := by
  simp only [roundWithAccuracy, hextended, hrounded]
  rcases Nat.lt_or_eq_of_le hhigh with hlt | rfl
  · simp only [shiftToTargetExponent_of_lt hfirst hlt hlow]
    by_cases hz : rounded = 0
    · have hs : shift = 0 := by omega
      rw [dif_pos hz, hz, hs]
      exact ofModel_pack_zero sign
    · rw [dif_neg hz]
      exact ofModel_pack_finite sign (Nat.pos_of_ne_zero hz) hfirst hlt hlow
  · simp only [shiftToTargetExponent_of_carry hfirst]
    rw [dif_neg (by decide)]
    have hnext : first + 1 = (shift + 1 : Nat) - 1074 := by omega
    have hpattern : (shift + 1) * 2 ^ 52 + 2 ^ 52 = shift * 2 ^ 52 + 2 ^ 53 := by omega
    rw [ofModel_pack_finite sign _ hnext (by decide) (Or.inr (le_refl _)), hpattern]

/-- A right shift moves the leading bit. -/
theorem log2_div_two_pow (n k : Nat) : (n / 2 ^ k).log2 = n.log2 - k := by
  rw [Nat.log2_eq_log_two, Nat.log2_eq_log_two, Nat.log_div_base_pow]

/-- Only the value of a fraction matters to its whole part. -/
theorem div_congr {a b c d : Nat} (hb : 0 < b) (hd : 0 < d) (h : a * d = c * b) :
    a / b = c / d := by
  rw [← Nat.mul_div_mul_right a b hd, h, Nat.mul_comm b d, Nat.mul_div_mul_right c d hb]

section Fractions

variable {a b k shift : Nat} {exponent : Int}

/-- Rounding a fraction with an exponent keeps as many bits as the format has, and as many
as its least exponent allows. -/
theorem ofModel_pack_fraction_of_shift (sign : Sign) (hb : 0 < b)
    (hshift : (shift : Int) = max ((a / b).log2 + exponent + 1022) 0)
    (hk : (k : Int) = shift - 1074 - exponent) :
    Float.ofModel (.pack (roundWithAccuracy Format.binary64 sign (a / b) exponent
        (accuracyOfFraction (a % b) b))) =
      toFloat (isMinus sign) (min infinity (shift * 2 ^ 52 + roundEven a (b * 2 ^ k))) := by
  have htarget : (Format.binary64.targetExponent (totalExponent (a / b) exponent) -
      exponent).toNat = k := by
    rw [targetExponent_eq, totalExponent]
    omega
  have hfirst : exponent + k = shift - 1074 := by omega
  have hwhole : a / (b * 2 ^ k) = a / b / 2 ^ k := (Nat.div_div_eq_div_mul ..).symm
  have hhigh : a / (b * 2 ^ k) < 2 ^ 53 := by
    have hpow : 2 ^ ((a / b).log2 + 1) ≤ 2 ^ 53 * 2 ^ k := by
      rw [← pow_add]
      exact Nat.pow_le_pow_right (by decide) (by omega)
    rw [hwhole]
    exact (Nat.div_lt_iff_lt_mul (Nat.two_pow_pos k)).mpr
      (Nat.lt_of_lt_of_le Nat.lt_log2_self hpow)
  have hlow : shift = 0 ∨ 2 ^ 52 ≤ a / (b * 2 ^ k) := by
    by_cases hz : shift = 0
    · exact Or.inl hz
    · have hlog : (a / b / 2 ^ k).log2 = 52 := by
        rw [log2_div_two_pow]
        omega
      rw [hwhole]
      exact Or.inr (Significand.bounds_of_leading hlog).1
  have hround := roundEven_eq_or a (b * 2 ^ k)
  exact ofModel_pack_rounded sign (by rw [shiftToTargetExponent, shiftToExponent, htarget])
    ((standsFor_accuracyOfFraction a hb).shiftRight hb k).roundedMantissa hfirst (by omega)
    (by omega)

/-- A fraction with an exponent is rounded and packed into the pattern of the magnitude
nearest to its value. There have to be enough bits before the point, unless the exponent is
that of the least magnitudes. -/
theorem ofModel_pack_fraction {numerator denominator : Nat} (sign : Sign)
    (hb : 0 < b) (hd : 0 < denominator)
    (hready : exponent ≤ -1074 ∨ 52 ≤ (a / b).log2)
    (hvalue : numerator * 2 ^ 1074 * (b * 2 ^ (-1074 - exponent).toNat) =
      a * (denominator * 2 ^ (exponent + 1074).toNat)) :
    Float.ofModel (.pack (roundWithAccuracy Format.binary64 sign (a / b) exponent
        (accuracyOfFraction (a % b) b))) =
      toFloat (isMinus sign) (nearest numerator denominator) := by
  obtain ⟨shift, hshift⟩ : ∃ shift, shift = (numerator * 2 ^ 1074 / denominator).log2 - 52 :=
    ⟨_, rfl⟩
  have hlog : (numerator * 2 ^ 1074 / denominator).log2 - (exponent + 1074).toNat =
      (a / b).log2 - (-1074 - exponent).toNat := by
    rw [← log2_div_two_pow, ← log2_div_two_pow, Nat.div_div_eq_div_mul, Nat.div_div_eq_div_mul]
    exact congrArg Nat.log2 (div_congr (by positivity) (by positivity) hvalue)
  have htotal : (shift : Int) = max ((a / b).log2 + exponent + 1022) 0 := by omega
  obtain ⟨k, hk⟩ : ∃ k : Nat, (k : Int) = shift - 1074 - exponent :=
    ⟨(shift - 1074 - exponent).toNat, by omega⟩
  have hpowers : 2 ^ shift * 2 ^ (-1074 - exponent).toNat =
      2 ^ (exponent + 1074).toNat * 2 ^ k := by
    rw [← pow_add, ← pow_add]
    congr 1
    omega
  have hsame : numerator * 2 ^ 1074 * (b * 2 ^ k) = a * (denominator * 2 ^ shift) := by
    refine Nat.eq_of_mul_eq_mul_right (Nat.two_pow_pos (-1074 - exponent).toNat) ?_
    -- The power is hidden first, so that no step evaluates it.
    generalize numerator * 2 ^ 1074 = scaled at hvalue ⊢
    calc scaled * (b * 2 ^ k) * 2 ^ (-1074 - exponent).toNat
        = scaled * (b * 2 ^ (-1074 - exponent).toNat) * 2 ^ k := by ring
      _ = a * (denominator * 2 ^ (exponent + 1074).toNat) * 2 ^ k := by rw [hvalue]
      _ = a * denominator * (2 ^ (exponent + 1074).toNat * 2 ^ k) := by ring
      _ = a * (denominator * 2 ^ shift) * 2 ^ (-1074 - exponent).toNat := by
        rw [← hpowers]
        ring
  have hround : roundEven (numerator * 2 ^ 1074) (denominator * 2 ^ shift) =
      roundEven a (b * 2 ^ k) :=
    roundEven_congr (Nat.mul_pos hd (Nat.two_pow_pos shift)) (Nat.mul_pos hb (Nat.two_pow_pos k))
      hsame
  rw [nearest_eq_min hd hshift, hround]
  exact ofModel_pack_fraction_of_shift sign hb htotal hk

end Fractions

/-- A quotient of mantissas with exponents has enough bits before the point, or the exponent
of the least magnitudes. It is packed into the magnitude nearest to the exact quotient. -/
theorem ofModel_pack_divCore {m n i j : Nat} {e f : Int} (sign : Sign) (hm : 0 < m)
    (hn : 0 < n) (hhigh : m < 2 ^ 53) (he : e = i - 1074) (hf : f = j - 1074) :
    (let (quotient, exponent, accuracy) := divCore Format.binary64 m e n f
    Float.ofModel (.pack (roundWithAccuracy Format.binary64 sign quotient exponent accuracy))) =
      toFloat (isMinus sign) (nearest (m * 2 ^ i) (n * 2 ^ j)) := by
  have hlog := (Nat.log2_lt hm.ne').mpr hhigh
  simp only [divCore, targetExponent_eq, totalExponent, Nat.shiftLeft_eq]
  generalize hexponent : min (e - f)
    (max ((m.log2 : Int) + 1 + e - (n.log2 + 1 + f) - 53) (-1074)) = exponent
  generalize hshift : (e - f - exponent).toNat = shift
  refine ofModel_pack_fraction sign hn (Nat.mul_pos hn (Nat.two_pow_pos j)) ?_ ?_
  · by_cases hleast : exponent ≤ -1074
    · exact Or.inl hleast
    · have hbits : m.log2 + shift = 52 + (n.log2 + 1) := by omega
      have hwhole : 2 ^ 52 * n ≤ m * 2 ^ shift := by
        calc 2 ^ 52 * n ≤ 2 ^ 52 * 2 ^ (n.log2 + 1) := Nat.mul_le_mul_left _ Nat.lt_log2_self.le
          _ = 2 ^ m.log2 * 2 ^ shift := by rw [← pow_add, ← pow_add, hbits]
          _ ≤ m * 2 ^ shift := Nat.mul_le_mul_right _ (Nat.log2_self_le hm.ne')
      have hle := (Nat.le_div_iff_mul_le hn).mpr hwhole
      exact Or.inr ((Nat.le_log2 (by omega)).mpr hle)
  · have hpowers : i + 1074 + (-1074 - exponent).toNat = shift + (j + (exponent + 1074).toNat) := by
      omega
    calc m * 2 ^ i * 2 ^ 1074 * (n * 2 ^ (-1074 - exponent).toNat)
        = m * n * 2 ^ (i + 1074 + (-1074 - exponent).toNat) := by
          rw [pow_add, pow_add]
          generalize 2 ^ 1074 = least
          ring
      _ = m * n * 2 ^ (shift + (j + (exponent + 1074).toNat)) := by rw [hpowers]
      _ = m * 2 ^ shift * (n * 2 ^ j * 2 ^ (exponent + 1074).toNat) := by ring

end PostfixArithmetic.BitPattern
