import PostfixArithmetic.Number.Decimal
import PostfixArithmetic.Text.Blank
import PostfixArithmetic.Text.DecimalDigit

/-!
# Reading numerals

A numeral is an optional sign and then either the name of infinity or of
not-a-number in any case, or decimal digits with an optional point and an
optional exponent. ASCII blanks around it are ignored, and one underscore may
stand between two digits. The value is the nearest binary64 number. Digits and blanks
of other scripts are not read here: the lexer takes none for digits, and numbers are
written with ASCII characters only.
-/

namespace PostfixArithmetic.Numeral

/-- The text without the underscores between digits, or nothing if an underscore
stands elsewhere. The flag says whether a digit came just before. -/
def dropSeparators : Bool → List Char → Option (List Char)
  | _, [] => some []
  | afterDigit, c :: rest =>
    if c = '_' then
      if afterDigit && rest.head?.any isAsciiDigit then dropSeparators false rest else none
    else (dropSeparators (isAsciiDigit c) rest).map (c :: ·)

/-- Whether a minus sign stands in front, and the text after the sign if there is one. -/
def splitSign : List Char → Bool × List Char
  | '-' :: rest => (true, rest)
  | '+' :: rest => (false, rest)
  | text => (false, text)

/-- The exponent of a numeral: nothing at all, or the letter `e` and a signed
sequence of digits. -/
def readExponent? : List Char → Option Int
  | [] => some 0
  | c :: rest =>
    let (negative, digits) := splitSign rest
    if (c = 'e' ∨ c = 'E') ∧ digits ≠ [] ∧ digits.all isAsciiDigit then
      some (if negative then -digitsValue digits else digitsValue digits)
    else none

/-- The digits after a point and what follows them; without a point there are none. -/
def splitFraction : List Char → List Char × List Char
  | '.' :: rest => (rest.takeWhile isAsciiDigit, rest.dropWhile isAsciiDigit)
  | text => ([], text)

/-- An unsigned decimal numeral: at least one digit, before or after the point. -/
def readDecimal? (text : List Char) : Option Decimal :=
  let whole := text.takeWhile isAsciiDigit
  let (fraction, rest) := splitFraction (text.dropWhile isAsciiDigit)
  if whole = [] ∧ fraction = [] then none
  else (readExponent? rest).map fun exponent =>
    ⟨digitsValue (whole ++ fraction), exponent - fraction.length⟩

/-- The bit pattern of an unsigned numeral. -/
def readMagnitude? (text : List Char) : Option Nat :=
  let name := text.map Char.toLower
  if name = "inf".toList ∨ name = "infinity".toList then some BitPattern.infinity
  else if name = "nan".toList then some BitPattern.nan
  else (readDecimal? text).map Decimal.pattern

/-- The number that a text denotes, or nothing if it is no numeral. A text with digits or
blanks beyond ASCII counts as none. -/
def read? (text : String) : Option Float :=
  match dropSeparators false (trimBoth isAsciiBlank text.toList) with
  | none => none
  | some body =>
    let (negative, rest) := splitSign body
    (readMagnitude? rest).map (BitPattern.toFloat negative)

/-- Blanks, a sign, an underscore and an exponent together. -/
example : read? " -1_000.5e-1\n" = some (-100.05) := by decide +kernel

/-- Underscores stand alone and between digits. -/
example : read? "1__0" = none ∧ read? "_1" = none ∧ read? "1_.5" = none := by decide +kernel

/-- Halfway to the first power of two beyond the range, a numeral is infinite. -/
example : read? "1.7976931348623158e308" = some 1.7976931348623157e308 ∧
    read? "1.7976931348623159e308" = read? "inf" := by decide +kernel

/-- Text without underscores passes unchanged. -/
theorem dropSeparators_of_not_mem {text : List Char} (h : '_' ∉ text) (afterDigit : Bool) :
    dropSeparators afterDigit text = some text := by
  induction text generalizing afterDigit with
  | nil => rfl
  | cons c rest ih =>
    simp only [List.mem_cons, not_or] at h
    have other : c ≠ '_' := fun same => h.1 same.symm
    simp [dropSeparators, other, ih h.2]

end PostfixArithmetic.Numeral
