/-!
# Sets of characters given by ranges

A character class of a standard is written down as a list of ranges of code
points. Membership is all that the other modules ask of it.
-/

namespace PostfixArithmetic

/-- A range of code points, both ends included. -/
structure CodeRange where
  /-- The least code point of the range. -/
  first : Nat
  /-- The greatest code point of the range. -/
  last : Nat

/-- Whether a code point lies in the range. -/
def CodeRange.contains (range : CodeRange) (code : Nat) : Bool :=
  range.first ≤ code && code ≤ range.last

/-- Whether a character lies in one of the ranges. -/
def CodeRange.covers (ranges : List CodeRange) (c : Char) : Bool :=
  ranges.any (·.contains c.toNat)

/-- A character is covered exactly when one of the ranges encloses its code point. -/
theorem CodeRange.covers_iff (ranges : List CodeRange) (c : Char) :
    CodeRange.covers ranges c = true ↔
      ∃ range ∈ ranges, range.first ≤ c.toNat ∧ c.toNat ≤ range.last := by
  simp [CodeRange.covers, CodeRange.contains]

end PostfixArithmetic
