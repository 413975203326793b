import PostfixArithmetic.Number.Shortest

/-!
# Written numbers

The text of a number. The digits are those of its shortest decimal; a layout
decides how they are written: positionally with a point, or with an exponent.
Infinity and not-a-number have names, and only not-a-number hides its sign.
-/

namespace PostfixArithmetic.Written

/-- The decimal digits of a natural number, most significant first. -/
def decimalDigits (n : Nat) : List Char :=
  if n < 10 then [Nat.digitChar n] else decimalDigits (n / 10) ++ [Nat.digitChar (n % 10)]

/-- The decisions of a number format. -/
structure Layout where
  /-- The least power of ten at the leading digit that is written positionally. -/
  leastPlain : Int
  /-- The greatest power of ten at the leading digit that is written positionally. -/
  greatestPlain : Int
  /-- The least number of digits in an exponent. -/
  exponentWidth : Nat

/-- Numbers from `10 ^ -4` up to `10 ^ 16` are written positionally, and an
exponent has at least two digits. -/
def layout : Layout := ⟨-4, 15, 2⟩

/-- Digits with a point such that the leading digit stands at the given power of
ten. There is at least one digit on either side of the point. -/
def plain (digits : List Char) (leading : Int) : List Char :=
  if leading < 0 then
    '0' :: '.' :: List.replicate (-leading - 1).toNat '0' ++ digits
  else
    let places := leading.toNat + 1
    let fraction := digits.drop places
    digits.take places ++ List.replicate (places - digits.length) '0' ++
      '.' :: (if fraction = [] then ['0'] else fraction)

/-- Digits with a point after the leading one, if others follow, and an exponent. -/
def scientific (width : Nat) (digits : List Char) (leading : Int) : List Char :=
  let exponent := decimalDigits leading.natAbs
  let fraction := digits.drop 1
  digits.take 1 ++ (if fraction = [] then [] else '.' :: fraction) ++
    'e' :: (if leading < 0 then '-' else '+') ::
      List.replicate (width - exponent.length) '0' ++ exponent

/-- A decimal in a layout. -/
def Layout.decimal (l : Layout) (d : Decimal) : List Char :=
  let digits := decimalDigits d.coefficient
  let leading : Int := digits.length - 1 + d.exponent
  if l.leastPlain ≤ leading ∧ leading ≤ l.greatestPlain then plain digits leading
  else scientific l.exponentWidth digits leading

/-- The characters of a magnitude: a name, or the shortest decimal. -/
def magnitude (pattern : Nat) : List Char :=
  if pattern = BitPattern.infinity then "inf".toList
  else layout.decimal (Shortest.decimal pattern)

/-- The characters of a number. -/
def characters (x : Float) : List Char :=
  let pattern := BitPattern.ofFloat x
  if BitPattern.infinity < pattern then "nan".toList
  else if BitPattern.isNegative x then '-' :: magnitude pattern
  else magnitude pattern

/-- The text of a number. -/
def number (x : Float) : String :=
  String.ofList (characters x)

/-- Of all texts that read back, the shortest is written. -/
example : number (0.1 + 0.2) = "0.30000000000000004" := by decide +kernel

/-- The least positive number has a single digit. -/
example : number 5e-324 = "5e-324" := by decide +kernel

/-- Both ends of the positional range. -/
example : number 0.0001 = "0.0001" ∧ number 9999999999999998 = "9999999999999998.0" := by
  decide +kernel

/-- Just outside the positional range. -/
example : number 0.00001 = "1e-05" ∧ number 1e16 = "1e+16" := by decide +kernel

/-- Zero shows its sign, and not-a-number does not. -/
example : number (-0.0) = "-0.0" ∧ number (-(0.0 / 0.0)) = "nan" := by decide +kernel

end PostfixArithmetic.Written
