/-!
# Bit patterns of binary64 magnitudes

Without its sign, a binary64 number is its bit pattern read as a natural number.
Every finite magnitude is a whole multiple of `2 ^ -1074`, and the pattern counts
the magnitudes in order, so comparison and rounding are exact arithmetic on
natural numbers. Rounding goes to the nearest magnitude, ties to the even
pattern, and reaches infinity where the next magnitude would be `2 ^ 1024`.
-/

namespace PostfixArithmetic.BitPattern

/-- The pattern of infinity, one more than that of the greatest finite magnitude. -/
def infinity : Nat := 0x7FF0000000000000

/-- The pattern of a quiet NaN. -/
def nan : Nat := 0x7FF8000000000000

/-- The magnitude of a pattern, counted in multiples of `2 ^ -1074`. -/
def units (pattern : Nat) : Nat :=
  let exponent := pattern / Nat.pow 2 52
  let fraction := pattern % Nat.pow 2 52
  if exponent = 0 then fraction else (Nat.pow 2 52 + fraction) * Nat.pow 2 (exponent - 1)

/-- The greatest pattern whose magnitude is at most `count` units. -/
def floorOfUnits (count : Nat) : Nat :=
  let shift := count.log2 - 52
  shift * Nat.pow 2 52 + count / Nat.pow 2 shift

/-- The pattern nearest to `numerator / denominator`; halfway between two
patterns it is the even one. From `2 ^ 1024` on it is infinity. -/
def nearest (numerator denominator : Nat) : Nat :=
  let scaled := numerator * Nat.pow 2 1074
  if Nat.pow 2 2098 * denominator ≤ scaled then infinity
  else
    let below := floorOfUnits (scaled / denominator)
    let middle := (units below + units (below + 1)) * denominator
    if 2 * scaled < middle then below
    else if middle < 2 * scaled then below + 1
    else if below % 2 = 0 then below
    else below + 1

/-- The number with the given sign and magnitude. -/
def toFloat (negative : Bool) (pattern : Nat) : Float :=
  Float.ofBits (UInt64.ofNat (if negative then Nat.pow 2 63 + pattern else pattern))

/-- The magnitude of a number. -/
def ofFloat (x : Float) : Nat :=
  x.toBits.toNat % Nat.pow 2 63

/-- Whether the sign bit of a number is set. -/
def isNegative (x : Float) : Bool :=
  Nat.pow 2 63 ≤ x.toBits.toNat

/-- The magnitude of one number with the sign of another. -/
def copySign (x sign : Float) : Float :=
  toFloat (isNegative sign) (ofFloat x)

/-- Up to the least normal magnitude, a pattern is its own count of units. -/
theorem units_of_lt {pattern : Nat} (h : pattern < Nat.pow 2 52) : units pattern = pattern := by
  have quotient : pattern / Nat.pow 2 52 = 0 := Nat.div_eq_of_lt h
  have remainder : pattern % Nat.pow 2 52 = pattern := Nat.mod_eq_of_lt h
  simp only [units, quotient, remainder, if_true]

/-- The magnitude of a number leaves no room for the sign bit. -/
theorem ofFloat_lt (x : Float) : ofFloat x < Nat.pow 2 63 :=
  Nat.mod_lt _ (by decide)

end PostfixArithmetic.BitPattern
