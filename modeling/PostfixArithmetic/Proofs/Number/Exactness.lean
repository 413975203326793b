import PostfixArithmetic.Machine.Operation
import PostfixArithmetic.Proofs.Number.Integer

/-!
# Exact arithmetic on integers

Rounding does not change a mantissa whose leading 53 bits are followed by zeros. So a
sum, a difference or a product of integers is exact where it is at most `2 ^ 53`, and
so is a quotient that leaves no remainder. Only the sign of a zero is left open.
-/

namespace PostfixArithmetic

open Float.Model (Format UnpackedFloat totalExponent)
open Float.Model.UnpackedFloat

/-- Precision and least exponent decide the exponent of a rounded number. -/
theorem targetExponent_eq (total : Int) :
    Format.binary64.targetExponent total = max (total - 53) (-1074) :=
  rfl

/-- Zeros that are shifted out leave no trace. -/
theorem shiftRight_mul_two_pow (q k : Nat) :
    (⟨q * 2 ^ k, false, false⟩ : ExtendedMantissa) >>> k = ⟨q, false, false⟩ := by
  change k.repeat ExtendedMantissa.shiftRightOne _ = _
  induction k generalizing q with
  | zero => rw [pow_zero, Nat.mul_one, Nat.repeat]
  | succ k ih =>
    have hshift : q * 2 ^ (k + 1) = 2 * q * 2 ^ k := by ring
    rw [Nat.repeat, hshift, ih, ExtendedMantissa.shiftRightOne, Nat.mul_mod_right,
      Nat.mul_div_cancel_left q (by decide)]
    rfl

/-- The leading 53 bits are kept, and the exponent counts the zeros behind them. -/
theorem shiftToTargetExponent_mul_two_pow {q : Nat} (h : q.log2 = 52) (k : Nat) {e : Int}
    (he : -1074 ≤ e + k) :
    shiftToTargetExponent Format.binary64 (q * 2 ^ k) e .exact = (⟨q, false, false⟩, e + k) := by
  have htarget : Format.binary64.targetExponent (totalExponent (q * 2 ^ k) e) = e + k := by
    rw [targetExponent_eq, totalExponent, log2_mul_two_pow (Significand.ne_zero_of_leading h), h]
    omega
  have hshift : (e + k - e).toNat = k := by omega
  simp only [shiftToTargetExponent, htarget, shiftToExponent, hshift,
    ExtendedMantissa.ofMantissaAndAccuracy, shiftRight_mul_two_pow]

/-- A mantissa of 53 bits and zeros behind them is not changed by rounding. -/
theorem roundWithAccuracy_mul_two_pow {q : Nat} (h : q.log2 = 52) (hq : 0 < q) (k : Nat) {e : Int}
    (he : -1074 ≤ e + k) (sign : Sign) :
    roundWithAccuracy Format.binary64 sign (q * 2 ^ k) e .exact = .finite sign q (e + k) hq := by
  have hrounded : (⟨q, false, false⟩ : ExtendedMantissa).roundedMantissa = q := rfl
  have hagain := shiftToTargetExponent_mul_two_pow h 0 (e := e + k) (by omega)
  rw [pow_zero, Nat.mul_one] at hagain
  simp only [roundWithAccuracy, shiftToTargetExponent_mul_two_pow h k he, hrounded, hagain]
  rw [dif_neg hq.ne']
  congr 1
  omega

/-- A mantissa of at least 53 bits with the value of a significand is that significand
with zeros behind it. -/
theorem exists_mul_two_pow {m i q j : Nat} (h : q.log2 = 52) (hm : 52 ≤ m.log2)
    (hv : m * 2 ^ i = q * 2 ^ j) : ∃ k, j = i + k ∧ m = q * 2 ^ k := by
  have hpos : m ≠ 0 := by
    rintro rfl
    rw [Nat.log2_zero] at hm
    omega
  have hlog := congrArg Nat.log2 hv
  rw [log2_mul_two_pow hpos, log2_mul_two_pow (Significand.ne_zero_of_leading h), h] at hlog
  obtain ⟨k, rfl⟩ := Nat.exists_eq_add_of_le (by omega : i ≤ j)
  rw [pow_add, Nat.mul_comm (2 ^ i), ← Nat.mul_assoc] at hv
  exact ⟨k, rfl, Nat.eq_of_mul_eq_mul_right (Nat.two_pow_pos i) hv⟩

namespace Significand

variable {n m q i r j p k : Nat}

/-- The product of two significands is that of the product with zeros behind it. -/
theorem exists_product (hq : Significand n q i) (hr : Significand m r j)
    (hp : Significand (n * m) p k) : ∃ c, k + 52 = i + j + c ∧ q * r = p * 2 ^ c := by
  have hle : 2 ^ 52 ≤ q * r :=
    Nat.le_trans (bounds_of_leading hq.leading).1 (Nat.le_mul_of_pos_right q hr.significand_pos)
  have hlog : 52 ≤ (q * r).log2 := (Nat.le_log2 (by omega)).mpr hle
  refine exists_mul_two_pow hp.leading hlog ?_
  calc q * r * 2 ^ (i + j) = q * 2 ^ i * (r * 2 ^ j) := by ring
    _ = n * 2 ^ 52 * (m * 2 ^ 52) := by rw [hq.value, hr.value]
    _ = n * m * 2 ^ 52 * 2 ^ 52 := by ring
    _ = p * 2 ^ (k + 52) := by rw [← hp.value, pow_add, Nat.mul_assoc]

/-- A significand with 53 zeros behind it is divided without a remainder. -/
theorem exists_quotient (hq : Significand (m * n) q i) (hr : Significand m r j)
    (hp : Significand n p k) :
    ∃ c, j + k + 1 = i + c ∧
      divCore Format.binary64 q (i - 52) r (j - 52) = (p * 2 ^ c, (i : Int) - j - 53, .exact) := by
  have hv : q * 2 ^ (i + 52) = r * p * 2 ^ (j + k) := by
    calc q * 2 ^ (i + 52) = q * 2 ^ i * 2 ^ 52 := by ring
      _ = m * 2 ^ 52 * (n * 2 ^ 52) := by rw [hq.value]; ring
      _ = r * 2 ^ j * (p * 2 ^ k) := by rw [hr.value, hp.value]
      _ = r * p * 2 ^ (j + k) := by ring
  -- The product of two significands has at most 106 bits, so 53 zeros are enough.
  have hne : r * p ≠ 0 := Nat.mul_ne_zero hr.significand_pos.ne' hp.significand_pos.ne'
  have hbound : r * p < 2 ^ 53 * 2 ^ 53 :=
    Nat.mul_lt_mul'' (bounds_of_leading hr.leading).2 (bounds_of_leading hp.leading).2
  have hlt : (r * p).log2 < 106 := (Nat.log2_lt hne).mpr hbound
  have hlog := congrArg Nat.log2 hv
  rw [log2_mul_two_pow hq.significand_pos.ne', log2_mul_two_pow hne, hq.leading] at hlog
  obtain ⟨c, hc⟩ := Nat.exists_eq_add_of_le (by omega : i ≤ j + k + 1)
  have hm : q * 2 ^ 53 = r * (p * 2 ^ c) := by
    refine Nat.eq_of_mul_eq_mul_right (Nat.two_pow_pos i) ?_
    calc q * 2 ^ 53 * 2 ^ i = q * 2 ^ (i + 52) * 2 := by ring
      _ = r * p * 2 ^ (j + k + 1) := by rw [hv, pow_succ, Nat.mul_assoc _ _ 2]
      _ = r * (p * 2 ^ c) * 2 ^ i := by rw [hc]; ring
  have htotal (s l : Nat) (hs : s.log2 = 52) : totalExponent s ((l : Int) - 52) = l + 1 := by
    rw [totalExponent, hs]
    omega
  have htarget : min ((i : Int) - 52 - (j - 52)) (max ((i + 1 : Int) - (j + 1) - 53) (-1074)) =
      i - j - 53 := by
    have hi := hq.small
    have hj := hr.small
    omega
  have hshift : ((i : Int) - 52 - (j - 52) - (i - j - 53)).toNat = 53 := by omega
  refine ⟨c, hc, ?_⟩
  simp only [divCore, htotal q i hq.leading, htotal r j hr.leading, targetExponent_eq, htarget,
    hshift, Nat.shiftLeft_eq, hm, Nat.mul_div_cancel_left _ hr.significand_pos, Nat.mul_mod_right,
    accuracyOfFraction, if_true]

end Significand

/-- A mantissa with the value of a significand is rounded to it, whether it has more
bits or fewer. -/
theorem round_of_value {m i n q j : Nat} (h : Significand n q j) (hm : m * 2 ^ i = n * 2 ^ 52)
    (sign : Sign) :
    UnpackedFloat.round Format.binary64 sign m (i - 52) =
      .finite sign q (j - 52) h.significand_pos := by
  have hv : m * 2 ^ i = q * 2 ^ j := hm.trans h.value.symm
  have hpos : m ≠ 0 := by
    rintro rfl
    rw [Nat.zero_mul] at hv
    exact absurd hv.symm (Nat.mul_pos h.significand_pos (Nat.two_pow_pos j)).ne'
  have hlog : m.log2 + i = 52 + j := by
    have hl := congrArg Nat.log2 hv
    rwa [log2_mul_two_pow hpos, log2_mul_two_pow h.significand_pos.ne', h.leading] at hl
  have htarget : Format.binary64.targetExponent (totalExponent m ((i : Int) - 52)) = j - 52 := by
    rw [targetExponent_eq, totalExponent]
    omega
  simp only [UnpackedFloat.round, htarget, decreaseExponent]
  rcases Nat.le_total i j with hij | hji
  · obtain ⟨k, rfl, hmk⟩ := exists_mul_two_pow h.leading (by omega) hv
    have hshift : ((i : Int) - 52 - ((i + k : Nat) - 52)).toNat = 0 := by omega
    rw [hshift, Nat.shiftLeft_zero, hmk,
      roundWithAccuracy_mul_two_pow h.leading h.significand_pos k (by omega)]
    congr 1
    omega
  · obtain ⟨k, rfl⟩ := Nat.exists_eq_add_of_le hji
    have hqk : m * 2 ^ k = q := by
      rw [pow_add, Nat.mul_comm (2 ^ j), ← Nat.mul_assoc] at hv
      exact Nat.eq_of_mul_eq_mul_right (Nat.two_pow_pos j) hv
    have hshift : (((j + k : Nat) : Int) - 52 - (j - 52)).toNat = k := by omega
    have hround := roundWithAccuracy_mul_two_pow h.leading h.significand_pos 0
      (e := ((j + k : Nat) : Int) - 52 - k) (by omega) sign
    rw [pow_zero, Nat.mul_one] at hround
    rw [hshift, Nat.shiftLeft_eq, hqk, hround]
    congr 1
    omega

/-- A mantissa other than zero is rounded with its sign. -/
theorem normalize_apply {k : Nat} (hk : k ≠ 0) (sign zeroSign : Sign) (e : Int) :
    UnpackedFloat.normalize Format.binary64 (sign.apply k) e zeroSign =
      UnpackedFloat.round Format.binary64 sign k e := by
  cases sign with
  | negative =>
    have hc : compare (-(k : Int)) 0 = .lt := Int.compare_eq_lt.mpr (by omega)
    simp only [UnpackedFloat.normalize, Sign.apply, hc, Int.neg_neg, Int.toNat_natCast]
  | positive =>
    have hc : compare (k : Int) 0 = .gt := Int.compare_eq_gt.mpr (by omega)
    simp only [UnpackedFloat.normalize, Sign.apply, hc, Int.toNat_natCast]

/-- A sign passes over a factor. -/
theorem apply_mul (sign : Sign) (a b : Int) : sign.apply a * b = sign.apply (a * b) := by
  cases sign with
  | negative => exact Int.neg_mul a b
  | positive => rfl

/-- The other sign makes the negation. -/
theorem apply_neg (sign : Sign) (a : Int) : (-sign).apply a = -sign.apply a := by
  cases sign with
  | negative => exact (Int.neg_neg a).symm
  | positive => rfl

/-- A mantissa that is aligned to a smaller exponent keeps its value. -/
theorem Significand.aligned {n q i j : Nat} (h : Significand n q j) (hij : i ≤ j) (sign : Sign) :
    sign.apply (q <<< ((j : Int) - 52 - (i - 52)).toNat : Nat) * 2 ^ i = sign.apply n * 2 ^ 52 := by
  obtain ⟨k, rfl⟩ := Nat.exists_eq_add_of_le hij
  have hshift : (((i + k : Nat) : Int) - 52 - (i - 52)).toNat = k := by omega
  have hv : q * 2 ^ k * 2 ^ i = n * 2 ^ 52 := by
    rw [Nat.mul_assoc, ← pow_add, Nat.add_comm k, h.value]
  rw [apply_mul, apply_mul, hshift, Nat.shiftLeft_eq]
  exact congrArg sign.apply (by exact_mod_cast hv)

/-- A signed mantissa with the value of an integer is rounded to its form. -/
theorem represents_normalize {m n : Int} {i : Nat} (hm : m * 2 ^ i = n * 2 ^ 52)
    (hn : n.natAbs ≤ 2 ^ 53) (zeroSign : Sign) :
    Represents (UnpackedFloat.normalize Format.binary64 m (i - 52) zeroSign) n := by
  by_cases hz : m = 0
  · subst hz
    rw [Int.zero_mul] at hm
    have hn : n = 0 := by omega
    rw [hn]
    exact .zero zeroSign
  · have hv : m.natAbs * 2 ^ i = n.natAbs * 2 ^ 52 := by
      have habs := congrArg Int.natAbs hm
      rwa [Int.natAbs_mul, Int.natAbs_mul, Int.natAbs_pow, Int.natAbs_pow] at habs
    have hpos : 0 < n.natAbs * 2 ^ 52 := by
      rw [← hv]
      exact Nat.mul_pos (Int.natAbs_pos.mpr hz) (Nat.two_pow_pos i)
    obtain ⟨q, j, hq⟩ := Significand.exists_of_le (Nat.pos_of_mul_pos_right hpos) hn
    obtain ⟨sign, hs⟩ := exists_apply_natAbs m
    have hsn : sign.apply n.natAbs = n := by
      refine Int.eq_of_mul_eq_mul_right (by decide : (2 : Int) ^ 52 ≠ 0) ?_
      calc sign.apply n.natAbs * 2 ^ 52 = sign.apply (n.natAbs * 2 ^ 52) := apply_mul ..
        _ = sign.apply (m.natAbs * 2 ^ i) := congrArg sign.apply (by exact_mod_cast hv.symm)
        _ = sign.apply m.natAbs * 2 ^ i := (apply_mul ..).symm
        _ = n * 2 ^ 52 := by rw [hs, hm]
    have hnormalize := normalize_apply (Int.natAbs_ne_zero.mpr hz) sign zeroSign (i - 52)
    rw [hs] at hnormalize
    have hrepresents := Represents.finite sign hq
    rw [hsn] at hrepresents
    rw [hnormalize, round_of_value hq hv sign]
    exact hrepresents

namespace Represents

variable {u v : UnpackedFloat} {a b : Int}

/-- A difference is the sum with the negation. -/
theorem sub_eq_add_neg (hu : Represents u a) (hv : Represents v b) :
    UnpackedFloat.sub Format.binary64 u v = UnpackedFloat.add Format.binary64 u v.neg := by
  cases hu with
  | zero s =>
    cases hv with
    | zero t => rfl
    | finite t hr => rfl
  | finite s hq =>
    cases hv with
    | zero t => rfl
    | finite t hr =>
      simp only [UnpackedFloat.sub, UnpackedFloat.neg, UnpackedFloat.add, apply_neg,
        Int.sub_eq_add_neg]

/-- Sums are exact. -/
theorem add (hu : Represents u a) (hv : Represents v b) (h : (a + b).natAbs ≤ 2 ^ 53) :
    Represents (UnpackedFloat.add Format.binary64 u v) (a + b) := by
  cases hu with
  | zero s =>
    rw [Int.zero_add] at h ⊢
    cases hv with
    | zero t =>
      rw [UnpackedFloat.add]
      split
      · exact zero s
      · exact zero .positive
    | finite t hq => exact finite t hq
  | @finite s n q i hq =>
    cases hv with
    | zero t =>
      rw [Int.add_zero]
      exact finite s hq
    | @finite t m r j hr =>
      have hmin : min ((i : Int) - 52) (j - 52) = (min i j : Nat) - 52 := by omega
      rw [UnpackedFloat.add, hmin]
      refine represents_normalize ?_ h .positive
      rw [Int.add_mul, Int.add_mul, hq.aligned (Nat.min_le_left i j),
        hr.aligned (Nat.min_le_right i j)]

/-- Negation is exact. -/
theorem neg (hv : Represents v b) : Represents v.neg (-b) := by
  cases hv with
  | zero t => exact zero (-t)
  | @finite t m r j hr =>
    rw [← apply_neg]
    exact finite (-t) hr

/-- Differences are exact. -/
theorem sub (hu : Represents u a) (hv : Represents v b) (h : (a - b).natAbs ≤ 2 ^ 53) :
    Represents (UnpackedFloat.sub Format.binary64 u v) (a - b) := by
  rw [sub_eq_add_neg hu hv, Int.sub_eq_add_neg]
  exact hu.add hv.neg h

/-- The product of signs is the sign of a product. -/
theorem apply_mul_apply (s t : Sign) (n m : Nat) :
    (s * t).apply (n * m : Nat) = s.apply n * t.apply m := by
  rw [Int.natCast_mul]
  cases s <;> cases t
  · exact (Int.neg_mul_neg _ _).symm
  · exact (Int.neg_mul _ _).symm
  · exact (Int.mul_neg _ _).symm
  · rfl

/-- Products are exact. -/
theorem mul (hu : Represents u a) (hv : Represents v b) (h : (a * b).natAbs ≤ 2 ^ 53) :
    Represents (UnpackedFloat.mul Format.binary64 u v) (a * b) := by
  cases hu with
  | zero s =>
    rw [Int.zero_mul]
    cases hv with
    | zero t => exact zero (s * t)
    | finite t hr => exact zero (s * t)
  | @finite s n q i hq =>
    cases hv with
    | zero t =>
      rw [Int.mul_zero]
      exact zero (s * t)
    | @finite t m r j hr =>
      rw [← apply_mul_apply] at h ⊢
      rw [natAbs_apply] at h
      obtain ⟨p, k, hp⟩ := Significand.exists_of_le (Nat.mul_pos hq.pos hr.pos) h
      obtain ⟨c, hc, hqr⟩ := hq.exists_product hr hp
      have hround := roundWithAccuracy_mul_two_pow hp.leading hp.significand_pos c
        (e := (i : Int) - 52 + (j - 52)) (by omega) (s * t)
      have hexp : (i : Int) - 52 + (j - 52) + c = k - 52 := by omega
      simp only [← hqr, hexp] at hround
      rw [UnpackedFloat.mul, hround]
      exact finite (s * t) hp

/-- The quotient of signs is the sign of a quotient. -/
theorem apply_ediv_apply (s t : Sign) {m : Nat} (hm : 0 < m) (d : Nat) :
    s.apply (m * d : Nat) / t.apply m = (s / t).apply d := by
  have hs : t * (s / t) = s := by cases s <;> cases t <;> rfl
  have hne : t.apply m ≠ 0 := by
    rw [← Int.natAbs_ne_zero, natAbs_apply]
    exact hm.ne'
  have hprod := apply_mul_apply t (s / t) m d
  rw [hs] at hprod
  rw [hprod, Int.mul_ediv_cancel_left _ hne]

/-- Quotients without a remainder are exact. -/
theorem div (hu : Represents u a) (hv : Represents v b) (hb : b ≠ 0) (hdvd : b ∣ a)
    (h : (a / b).natAbs ≤ 2 ^ 53) : Represents (UnpackedFloat.div Format.binary64 u v) (a / b) := by
  cases hv with
  | zero t => exact absurd rfl hb
  | @finite t m r j hr =>
    cases hu with
    | zero s =>
      rw [Int.zero_ediv]
      exact zero (s / t)
    | @finite s n q i hq =>
      have hmn := Int.natAbs_dvd_natAbs.mpr hdvd
      rw [natAbs_apply, natAbs_apply] at hmn
      obtain ⟨d, rfl⟩ := hmn
      rw [apply_ediv_apply s t hr.pos] at h ⊢
      rw [natAbs_apply] at h
      obtain ⟨p, k, hp⟩ := Significand.exists_of_le (Nat.pos_of_mul_pos_left hq.pos) h
      obtain ⟨c, hc, hcore⟩ := hq.exists_quotient hr hp
      have hround := roundWithAccuracy_mul_two_pow hp.leading hp.significand_pos c
        (e := (i : Int) - j - 53) (by omega) (s / t)
      have hexp : (i : Int) - j - 53 + c = k - 52 := by omega
      simp only [hexp] at hround
      simp only [UnpackedFloat.div, hcore, hround]
      exact finite (s / t) hp

end Represents

/-- An integer other than zero is not equal to a zero as a number. -/
theorem IsInteger.beq_zero {x : Float} {n : Int} (h : IsInteger x n) (hn : n ≠ 0) :
    (x == 0) = false := by
  have hzero : BitPattern.units (BitPattern.ofFloat 0) = 0 := by decide +kernel
  have hminus : BitPattern.units (BitPattern.ofFloat (-0)) = 0 := by decide +kernel
  have hne : BitPattern.units (BitPattern.ofFloat x) ≠ 0 := by
    rw [h.whole]
    exact mul_ne_zero (Int.natAbs_ne_zero.mpr hn) (pow_ne_zero _ two_ne_zero)
  refine Bool.eq_false_iff.mpr fun hc => ?_
  obtain ⟨_, _, rfl | ⟨rfl, _⟩ | ⟨rfl, _⟩⟩ := Float.beq_iff_ne_nan_and_eq.mp hc
  · exact hne hzero
  · exact hne hzero
  · exact hne hminus

namespace Operation

/-- The result of an operation on integers. A quotient is meant where it is exact. -/
def onIntegers : Operation → Int → Int → Int
  | add, a, b => a + b
  | sub, a, b => a - b
  | mul, a, b => a * b
  | div, a, b => a / b

/-- Integers for which an operation has an integer for its exact result: every two, but
for a division the divisor is not zero and divides the dividend. -/
def IsExactOn (operation : Operation) (a b : Int) : Prop :=
  operation = div → b ≠ 0 ∧ b ∣ a

/-- Whether an operation is exact can be computed. -/
instance decidableIsExactOn (operation : Operation) (a b : Int) :
    Decidable (operation.IsExactOn a b) :=
  inferInstanceAs (Decidable (operation = div → b ≠ 0 ∧ b ∣ a))

/-- An operation on integers of at most `2 ^ 53` is exact if its result is such an integer. -/
theorem isInteger_apply {operation : Operation} {x y : Float} {a b : Int} (hx : IsInteger x a)
    (hy : IsInteger y b) (ha : a.natAbs ≤ 2 ^ 53) (hb : b.natAbs ≤ 2 ^ 53)
    (hexact : operation.IsExactOn a b) (h : (operation.onIntegers a b).natAbs ≤ 2 ^ 53) :
    IsInteger (operation.apply x y) (operation.onIntegers a b) := by
  have hu := hx.represents ha
  have hv := hy.represents hb
  cases operation with
  | add => exact (hu.add hv h).isInteger
  | sub => exact (hu.sub hv h).isInteger
  | mul => exact (hu.mul hv h).isInteger
  | div =>
    obtain ⟨hne, hdvd⟩ := hexact rfl
    rw [apply, divide, dif_pos (hy.beq_zero hne)]
    exact (hu.div hv hne hdvd h).isInteger

end Operation

end PostfixArithmetic
