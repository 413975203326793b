import PostfixArithmetic.Number.Decimal

/-!
# The shortest decimal of a magnitude

Among the decimals that read back as a given finite magnitude, the one with the
fewest digits is chosen, and of those the nearest. On the grid of a given number
of digits only the two neighbours of the magnitude need to be tried. The exact
expansion stands behind the search, so that the answer always reads back.
-/

namespace PostfixArithmetic.Shortest

open BitPattern

/-- The power of ten at the leading digit of a non-zero magnitude. Below one the
magnitude is first scaled by `10 ^ 324`, which brings even the least one above one. -/
def leadingExponent (pattern : Nat) : Int :=
  let count := units pattern
  if Nat.pow 2 1074 ≤ count then decimalLength (count / Nat.pow 2 1074) - 1
  else decimalLength (count * Nat.pow 10 324 / Nat.pow 2 1074) - 325

/-- The exact value of a magnitude. -/
def expansion (pattern : Nat) : Decimal :=
  ⟨units pattern * Nat.pow 5 1074, -1074⟩

/-- Of the two decimals with `digits` digits next to a magnitude, the one that
reads back as it. If both do it is the nearer one, and halfway the even one. -/
def neighbour? (pattern digits : Nat) : Option Decimal :=
  let exponent := leadingExponent pattern - digits + 1
  let scaled := units pattern * Nat.pow 10 (-exponent).toNat
  let step := Nat.pow 2 1074 * Nat.pow 10 exponent.toNat
  let below := scaled / step
  let lower : Decimal := ⟨below, exponent⟩
  let upper : Decimal := ⟨below + 1, exponent⟩
  let middle := (2 * below + 1) * step
  let preferLower := 2 * scaled < middle ∨ 2 * scaled = middle ∧ below % 2 = 0
  if lower.pattern = pattern ∧ (preferLower ∨ upper.pattern ≠ pattern) then some lower
  else if upper.pattern = pattern then some upper
  else none

/-- The shortest decimal that reads back as a finite magnitude, without zeros at its end. -/
def decimal (pattern : Nat) : Decimal :=
  if pattern = 0 then ⟨0, 0⟩
  else
    let counts := (List.range 17).map (· + 1)
    ((counts.findSome? (neighbour? pattern)).getD (expansion pattern)).trim

/-- A decimal found on some grid reads back as the magnitude. -/
theorem pattern_of_neighbour {pattern digits : Nat} {d : Decimal}
    (h : neighbour? pattern digits = some d) : d.pattern = pattern := by
  simp only [neighbour?] at h
  split at h
  · rename_i lower
    cases h
    exact lower.1
  · split at h
    · rename_i upper
      cases h
      exact upper
    · exact absurd h (by simp)

end PostfixArithmetic.Shortest
