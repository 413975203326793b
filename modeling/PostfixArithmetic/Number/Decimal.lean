import PostfixArithmetic.Number.BitPattern

/-!
# Decimals

A decimal is a natural number times a power of ten. Its bit pattern is that of
the nearest binary64 magnitude. Exponents may be of any size: far outside the
range of binary64 the answer is infinity or zero without forming the power.
-/

namespace PostfixArithmetic

/-- The number of decimal digits of a natural number; zero has one. -/
def decimalLength (n : Nat) : Nat :=
  if n < 10 then 1 else decimalLength (n / 10) + 1

/-- The non-negative number `coefficient * 10 ^ exponent`. -/
structure Decimal where
  /-- The digits, read as a natural number. -/
  coefficient : Nat
  /-- The power of ten that the digits are scaled by. -/
  exponent : Int
deriving Repr, DecidableEq

namespace Decimal

/-- The power of ten at the leading digit: a non-zero decimal lies from ten to
this power up to ten times as much. -/
def magnitude (d : Decimal) : Int :=
  decimalLength d.coefficient - 1 + d.exponent

/-- The bit pattern nearest to a decimal. From `10 ^ 309` on all are infinite,
and below `10 ^ -324` all are zero. -/
def pattern (d : Decimal) : Nat :=
  if d.coefficient = 0 ∨ d.magnitude < -324 then 0
  else if 309 ≤ d.magnitude then BitPattern.infinity
  else BitPattern.nearest (d.coefficient * Nat.pow 10 d.exponent.toNat)
    (Nat.pow 10 (-d.exponent).toNat)

/-- The same decimal without zeros at the end of its digits. -/
def trim (d : Decimal) : Decimal :=
  if d.coefficient ≠ 0 ∧ d.coefficient % 10 = 0 then
    trim ⟨d.coefficient / 10, d.exponent + 1⟩
  else d
termination_by d.coefficient
decreasing_by
  rename_i nonzero
  exact Nat.div_lt_self (Nat.pos_of_ne_zero nonzero.1) (by decide)

end Decimal

end PostfixArithmetic
