import PostfixArithmetic.Proofs.Number.Quotient

/-!
# Division of all numbers

A pattern tells whether a number is an infinity, a zero, another finite number, or none at
all. The standard of the format says for each two of these kinds what their quotient is. The
plain quotient is that one, and so is the answer that is given for a zero divisor. So
division is a single operation on all numbers, and it never fails.
-/

namespace PostfixArithmetic

namespace BitPattern

open Float.Model (Format UnpackedFloat)
open Float.Model.UnpackedFloat

/-- The kinds of numbers, told by what a number is unpacked into and by its pattern. -/
inductive Kind (x : Float) : Prop where
  /-- Beyond infinity there are no numbers. -/
  | nan (hu : x.toModel.unpack = .notANumber) (h : infinity < ofFloat x)
  /-- The two infinities. -/
  | infinite (sign : Sign) (hu : x.toModel.unpack = .infinity sign) (h : ofFloat x = infinity)
    (hs : isNegative x = isMinus sign)
  /-- The two zeros. -/
  | zero (sign : Sign) (hu : x.toModel.unpack = .zero sign) (h : ofFloat x = 0)
    (hs : isNegative x = isMinus sign)
  /-- All other numbers. -/
  | finite (sign : Sign) (mantissa : Nat) (exponent : Int) (positive : 0 < mantissa)
    (hu : x.toModel.unpack = .finite sign mantissa exponent positive) (hpos : 0 < ofFloat x)
    (h : ofFloat x < infinity) (hs : isNegative x = isMinus sign) (hhigh : mantissa < 2 ^ 53)

/-- Every number is of one of the kinds. -/
theorem kind (x : Float) : Kind x := by
  have hinfinity : infinity = 2047 * 2 ^ 52 := by decide
  have hs : isNegative x =
      isMinus (Sign.ofBitVec (@unpackSign Format.binary64 x.toBits.toBitVec)) :=
    Bool.eq_iff_iff.mpr ((isNegative_iff x).trans (eq_negative_iff _))
  have hones : @unpackExponent Format.binary64 x.toBits.toBitVec = -1#11 ↔
      ofFloat x / 2 ^ 52 = 2047 := by
    rw [ofFloat_div]
    exact BitVec.toNat_inj.symm
  have hzeros : @unpackExponent Format.binary64 x.toBits.toBitVec = 0#11 ↔
      ofFloat x / 2 ^ 52 = 0 := by
    rw [ofFloat_div]
    exact BitVec.toNat_inj.symm
  have hnothing : @unpackMantissa Format.binary64 x.toBits.toBitVec = 0#52 ↔
      ofFloat x % 2 ^ 52 = 0 := by
    rw [ofFloat_mod]
    exact BitVec.toNat_inj.symm
  have hbound : ofFloat x / 2 ^ 52 < 2 ^ 11 := by
    rw [ofFloat_div]
    exact BitVec.isLt _
  have hu : x.toModel.unpack = unpack Format.binary64 x.toBits.toBitVec := rfl
  rw [unpack] at hu
  by_cases hspecial : ofFloat x / 2 ^ 52 = 2047
  · rw [if_pos (hones.mpr hspecial)] at hu
    by_cases hm : ofFloat x % 2 ^ 52 = 0
    · rw [if_pos (hnothing.mpr hm)] at hu
      exact .infinite _ hu (by omega) hs
    · rw [if_neg (hnothing.not.mpr hm)] at hu
      exact .nan hu (by omega)
  · rw [if_neg (hones.not.mpr hspecial)] at hu
    by_cases hsmall : ofFloat x / 2 ^ 52 = 0
    · rw [if_pos (hzeros.mpr hsmall)] at hu
      by_cases hm : ofFloat x % 2 ^ 52 = 0
      · rw [dif_pos (hnothing.mpr hm)] at hu
        exact .zero _ hu (by omega) hs
      · rw [dif_neg (hnothing.not.mpr hm)] at hu
        exact .finite _ _ _ _ hu (by omega) (by omega) hs
          (Nat.lt_trans (BitVec.isLt _) (by decide : 2 ^ 52 < 2 ^ 53))
    · rw [if_neg (hzeros.not.mpr hsmall)] at hu
      exact .finite _ _ _ _ hu (by omega) (by omega) hs (BitVec.isLt _)

section Classes

variable (x : Float)

/-- Patterns beyond infinity are no numbers. -/
theorem isNaN_iff_infinity_lt : x.isNaN = true ↔ infinity < ofFloat x := by
  change x.toModel.unpack.isNaN = true ↔ _
  cases kind x with
  | nan hu h =>
    rw [hu]
    exact iff_of_true rfl h
  | infinite sign hu h =>
    rw [hu]
    exact iff_of_false Bool.false_ne_true h.not_gt
  | zero sign hu h =>
    rw [hu, h]
    exact iff_of_false Bool.false_ne_true (Nat.not_lt_zero _)
  | finite sign m e hm hu hpos h =>
    rw [hu]
    exact iff_of_false Bool.false_ne_true h.not_gt

/-- The pattern of infinity is that of the two infinities. -/
theorem isInf_iff_eq_infinity : x.isInf = true ↔ ofFloat x = infinity := by
  change x.toModel.unpack.isInf = true ↔ _
  cases kind x with
  | nan hu h =>
    rw [hu]
    exact iff_of_false Bool.false_ne_true h.ne'
  | infinite sign hu h =>
    rw [hu]
    exact iff_of_true rfl h
  | zero sign hu h =>
    rw [hu, h]
    exact iff_of_false Bool.false_ne_true (by decide)
  | finite sign m e hm hu hpos h =>
    rw [hu]
    exact iff_of_false Bool.false_ne_true h.ne

/-- Smaller patterns are finite. -/
theorem isFinite_iff_lt_infinity : x.isFinite = true ↔ ofFloat x < infinity := by
  change x.toModel.unpack.isFinite = true ↔ _
  cases kind x with
  | nan hu h =>
    rw [hu]
    exact iff_of_false Bool.false_ne_true h.not_gt
  | infinite sign hu h =>
    rw [hu]
    exact iff_of_false Bool.false_ne_true h.not_lt
  | zero sign hu h =>
    rw [hu, h]
    exact iff_of_true rfl (by decide)
  | finite sign m e hm hu hpos h =>
    rw [hu]
    exact iff_of_true rfl h

/-- Both zeros are equal to zero, and no other number is. -/
theorem beq_zero_iff_eq_zero : (x == 0) = true ↔ ofFloat x = 0 := by
  change UnpackedFloat.beq x.toModel.unpack (.zero .positive) = true ↔ _
  cases kind x with
  | nan hu h =>
    rw [hu]
    exact iff_of_false Bool.false_ne_true (Nat.zero_lt_of_lt h).ne'
  | infinite sign hu h =>
    rw [hu, h]
    exact iff_of_false (by cases sign <;> exact Bool.false_ne_true) (by decide)
  | zero sign hu h =>
    rw [hu]
    exact iff_of_true rfl h
  | finite sign m e hm hu hpos h =>
    rw [hu]
    exact iff_of_false (by cases sign <;> exact Bool.false_ne_true) hpos.ne'

end Classes

/-- The patterns of two magnitudes that have no quotient. -/
def Undefined (p q : Nat) : Prop :=
  infinity < p ∨ infinity < q ∨ p = 0 ∧ q = 0 ∨ p = infinity ∧ q = infinity

/-- The pattern of a quotient of magnitudes. -/
def quotientPattern (p q : Nat) : Nat :=
  if p = infinity ∨ q = 0 then infinity
  else if q = infinity then 0
  else nearest (units p) (units q)

/-- Zero is nearest to zero. -/
theorem nearest_zero {denominator : Nat} (hd : denominator ≠ 0) : nearest 0 denominator = 0 := by
  have hunits : units 0 = 0 := units_of_lt (by decide)
  refine nearest_of_units (Nat.pos_of_ne_zero hd) (by decide) ?_
  rw [hunits, Nat.zero_mul, Nat.zero_mul]

/-- The plain quotient is that of the unpacked numbers. -/
theorem div_eq_ofModel (a b : Float) :
    a / b = Float.ofModel
      (.pack (UnpackedFloat.div Format.binary64 a.toModel.unpack b.toModel.unpack)) :=
  rfl

variable {a b : Float}

/-- Numbers without a quotient are divided into what is not a number. -/
theorem div_of_undefined (h : Undefined (ofFloat a) (ofFloat b)) :
    a / b = toFloat false nan := by
  have hinfinity : 0 < infinity := by decide
  rw [Undefined] at h
  rw [div_eq_ofModel]
  cases kind a with
  | nan hu => rw [hu]; rfl
  | infinite s hu ha =>
    cases kind b with
    | nan hv => rw [hu, hv]; rfl
    | infinite t hv => rw [hu, hv]; rfl
    | zero t hv hb => omega
    | finite t n f hn hv hpos hb => omega
  | zero s hu ha =>
    cases kind b with
    | nan hv => rw [hu, hv]; rfl
    | infinite t hv hb => omega
    | zero t hv => rw [hu, hv]; rfl
    | finite t n f hn hv hpos hb => omega
  | finite s m e hm hu hpos ha =>
    cases kind b with
    | nan hv => rw [hu, hv]; rfl
    | infinite t hv hb => omega
    | zero t hv hb => omega
    | finite t n f hn hv hposb hb => omega

/-- Finite numbers other than zero are divided into the magnitude nearest to the exact
quotient. -/
theorem div_of_unpack {s t : Sign} {m n : Nat} {e f : Int} {hm : 0 < m} {hn : 0 < n}
    (hu : a.toModel.unpack = .finite s m e hm) (hv : b.toModel.unpack = .finite t n f hn)
    (hhigh : m < 2 ^ 53) :
    a / b = toFloat (isMinus (s / t)) (nearest (units (ofFloat a)) (units (ofFloat b))) := by
  obtain ⟨hle, hunits⟩ := units_of_unpack hu
  obtain ⟨hlf, hunits'⟩ := units_of_unpack hv
  rw [div_eq_ofModel, hu, hv, hunits, hunits']
  exact ofModel_pack_divCore (s / t) hm hn hhigh (by omega) (by omega)

/-- All other numbers have a quotient, with the sign that the two signs make. -/
theorem div_of_defined (h : ¬ Undefined (ofFloat a) (ofFloat b)) :
    a / b = toFloat (isNegative a ^^ isNegative b) (quotientPattern (ofFloat a) (ofFloat b)) := by
  have hinfinity : 0 < infinity := by decide
  rw [Undefined] at h
  rw [quotientPattern]
  cases kind a with
  | nan hu ha => omega
  | infinite s hu ha hs =>
    rw [if_pos (Or.inl ha), hs]
    cases kind b with
    | nan hv hb => omega
    | infinite t hv hb => omega
    | zero t hv hb ht =>
      rw [ht, ← isMinus_div, div_eq_ofModel, hu, hv]
      exact ofModel_pack_infinity (s / t)
    | finite t n f hn hv hpos hb ht =>
      rw [ht, ← isMinus_div, div_eq_ofModel, hu, hv]
      exact ofModel_pack_infinity (s / t)
  | zero s hu ha hs =>
    rw [hs]
    cases kind b with
    | nan hv hb => omega
    | infinite t hv hb ht =>
      rw [if_neg (by omega), if_pos hb, ht, ← isMinus_div, div_eq_ofModel, hu, hv]
      exact ofModel_pack_zero (s / t)
    | zero t hv hb => omega
    | finite t n f hn hv hpos hb ht =>
      rw [if_neg (by omega), if_neg hb.ne, ht, ← isMinus_div, div_eq_ofModel, hu, hv, ha,
        units_of_lt (by decide), nearest_zero (units_ne_zero hpos.ne')]
      exact ofModel_pack_zero (s / t)
  | finite s m e hm hu hpos ha hs hhigh =>
    rw [hs]
    cases kind b with
    | nan hv hb => omega
    | infinite t hv hb ht =>
      rw [if_neg (by omega), if_pos hb, ht, ← isMinus_div, div_eq_ofModel, hu, hv]
      exact ofModel_pack_zero (s / t)
    | zero t hv hb ht =>
      rw [if_pos (Or.inr hb), ht, ← isMinus_div, div_eq_ofModel, hu, hv]
      exact ofModel_pack_infinity (s / t)
    | finite t n f hn hv hposb hb ht =>
      rw [if_neg (by omega), if_neg hb.ne, ht, ← isMinus_div]
      exact div_of_unpack hu hv hhigh

/-- A quotient is the magnitude of a number. -/
theorem quotientPattern_le {p q : Nat} : quotientPattern p q ≤ infinity := by
  rw [quotientPattern]
  split_ifs with hinfinite hzero
  · exact le_refl _
  · exact Nat.zero_le _
  · exact (isNearest_nearest _ (Nat.pos_of_ne_zero (units_ne_zero (by omega)))).le_infinity

/-- The product that answers for a zero divisor is an infinity with the sign of a quotient. -/
theorem copySign_mul_copySign (a b : Float) :
    copySign (toFloat false infinity) a * copySign 1 b =
      toFloat (isNegative a ^^ isNegative b) infinity := by
  rw [copySign, copySign]
  cases isNegative a <;> cases isNegative b <;> decide +kernel

end BitPattern

open BitPattern

/-- The answer for a zero divisor is the one that the plain quotient would have. So division
is the plain quotient of any two numbers. -/
theorem divide_eq_div (a b : Float) : divide a b = a / b := by
  rw [divide]
  by_cases hnonzero : (b == 0) = false
  · exact dif_pos hnonzero
  · rw [dif_neg hnonzero]
    have hb : ofFloat b = 0 := (beq_zero_iff_eq_zero b).mp ((Bool.not_eq_false _).mp hnonzero)
    by_cases hnone : (a == 0 || a.isNaN) = true
    · rw [if_pos hnone]
      rw [Bool.or_eq_true, beq_zero_iff_eq_zero, isNaN_iff_infinity_lt] at hnone
      exact (div_of_undefined (by rw [Undefined]; omega)).symm
    · rw [if_neg hnone, copySign_mul_copySign]
      rw [Bool.or_eq_true, beq_zero_iff_eq_zero, isNaN_iff_infinity_lt] at hnone
      have hinfinity : 0 < infinity := by decide
      rw [div_of_defined (by rw [Undefined]; omega), quotientPattern, if_pos (Or.inr hb)]

/-- The quotient of two numbers by the standard of the format. -/
structure IsQuotient (a b x : Float) : Prop where
  /-- It is not a number exactly if one of the two is none, both are zero or both are
  infinite. -/
  isNaN_iff : x.isNaN = true ↔ a.isNaN = true ∨ b.isNaN = true ∨
    (a == 0) = true ∧ (b == 0) = true ∨ a.isInf = true ∧ b.isInf = true
  /-- Otherwise it is negative exactly if one of the two is, and the other is not. -/
  isNegative_eq : x.isNaN = false → isNegative x = (isNegative a ^^ isNegative b)
  /-- Other numbers than zero over a zero are infinite. -/
  isInf_of_zero : a.isNaN = false → (a == 0) = false → (b == 0) = true → x.isInf = true
  /-- An infinity over a finite number is infinite. -/
  isInf_of_isInf : a.isInf = true → b.isFinite = true → x.isInf = true
  /-- A finite number over an infinity is zero. -/
  beq_zero_of_isInf : a.isFinite = true → b.isInf = true → (x == 0) = true
  /-- A finite number over a finite number other than zero has the magnitude nearest to the
  exact quotient. -/
  isNearest : a.isFinite = true → b.isFinite = true → (b == 0) = false →
    IsNearest (units (ofFloat a)) (units (ofFloat b)) (ofFloat x)

/-- The plain quotient is a quotient by the standard. -/
theorem isQuotient_div (a b : Float) : IsQuotient a b (a / b) := by
  have hinfinity : 0 < infinity := by decide
  by_cases h : Undefined (ofFloat a) (ofFloat b)
  · have hnan : infinity < ofFloat (a / b) := by
      rw [div_of_undefined h]
      decide +kernel
    rw [Undefined] at h
    constructor
    all_goals simp only [← Bool.not_eq_true, isNaN_iff_infinity_lt, isInf_iff_eq_infinity,
      isFinite_iff_lt_infinity, beq_zero_iff_eq_zero]
    all_goals omega
  · have hpattern : ofFloat (a / b) = quotientPattern (ofFloat a) (ofFloat b) := by
      rw [div_of_defined h, ofFloat_toFloat quotientPattern_le]
    have hsign : isNegative (a / b) = (isNegative a ^^ isNegative b) := by
      rw [div_of_defined h, isNegative_toFloat quotientPattern_le]
    have hle : ofFloat (a / b) ≤ infinity := hpattern ▸ quotientPattern_le
    rw [quotientPattern] at hpattern
    rw [Undefined] at h
    constructor
    all_goals simp only [← Bool.not_eq_true, isNaN_iff_infinity_lt, isInf_iff_eq_infinity,
      isFinite_iff_lt_infinity, beq_zero_iff_eq_zero]
    case isNaN_iff => omega
    case isNegative_eq => exact fun _ => hsign
    case isInf_of_zero =>
      intro _ _ hb
      rw [hpattern, if_pos (Or.inr hb)]
    case isInf_of_isInf =>
      intro ha _
      rw [hpattern, if_pos (Or.inl ha)]
    case beq_zero_of_isInf =>
      intro ha hb
      rw [hpattern, if_neg (by omega), if_pos hb]
    case isNearest =>
      intro ha hb hz
      rw [hpattern, if_neg (by omega), if_neg hb.ne]
      exact isNearest_nearest _ (Nat.pos_of_ne_zero (units_ne_zero hz))

/-- A quotient is not a number exactly if the magnitudes have no quotient. -/
theorem IsQuotient.infinity_lt_iff {a b x : Float} (h : IsQuotient a b x) :
    infinity < ofFloat x ↔ Undefined (ofFloat a) (ofFloat b) := by
  have hnan := h.isNaN_iff
  simp only [isNaN_iff_infinity_lt, isInf_iff_eq_infinity, beq_zero_iff_eq_zero] at hnan
  exact hnan

/-- Otherwise the pattern is that of the quotient of the magnitudes. -/
theorem IsQuotient.ofFloat_eq {a b x : Float} (h : IsQuotient a b x)
    (hdefined : ¬ Undefined (ofFloat a) (ofFloat b)) :
    ofFloat x = quotientPattern (ofFloat a) (ofFloat b) := by
  obtain ⟨-, -, hzero, hinfinite, hvanishing, hnearest⟩ := h
  simp only [← Bool.not_eq_true, isNaN_iff_infinity_lt, isInf_iff_eq_infinity,
    isFinite_iff_lt_infinity, beq_zero_iff_eq_zero] at hzero hinfinite hvanishing hnearest
  rw [Undefined] at hdefined
  rw [quotientPattern]
  split_ifs with hinfinity hdivisor
  · rcases hinfinity with ha | hb
    · by_cases hb : ofFloat b = 0
      · exact hzero (by omega) (by rw [ha]; decide) hb
      · exact hinfinite ha (by omega)
    · exact hzero (by omega) (by omega) hb
  · exact hvanishing (by omega) hdivisor
  · have hdivisor := Nat.pos_of_ne_zero (units_ne_zero (by omega : ofFloat b ≠ 0))
    exact (isNearest_iff hdivisor).mp (hnearest (by omega) (by omega) (by omega))

/-- The plain quotient is the only one by the standard. -/
theorem IsQuotient.eq_div {a b x : Float} (h : IsQuotient a b x) : x = a / b := by
  by_cases hundefined : Undefined (ofFloat a) (ofFloat b)
  · rw [div_of_undefined hundefined]
    exact (toFloat_nan (h.infinity_lt_iff.mpr hundefined)).symm
  · have hnumber : x.isNaN = false := by
      rw [← Bool.not_eq_true, isNaN_iff_infinity_lt, h.infinity_lt_iff]
      exact hundefined
    rw [div_of_defined hundefined, ← h.ofFloat_eq hundefined, ← h.isNegative_eq hnumber,
      toFloat_ofFloat]

namespace Operation

/-- Division is found by its symbol and answers for every two numbers, zeros, infinities and
what is not a number among them. The answer is the plain quotient, for zero divisors too,
and it is the only quotient of the two numbers by the standard of the format. -/
theorem isQuotient_divide_iff (a b : Float) :
    (ofSymbol "/").map (fun operation => operation.apply a b) = .ok (divide a b) ∧
      divide a b = a / b ∧ ∀ x, IsQuotient a b x ↔ x = divide a b := by
  refine ⟨rfl, divide_eq_div a b, fun x => ?_⟩
  rw [divide_eq_div]
  constructor
  · exact IsQuotient.eq_div
  · intro h
    rw [h]
    exact isQuotient_div a b

end Operation

end PostfixArithmetic
