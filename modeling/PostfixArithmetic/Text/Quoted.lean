import PostfixArithmetic.Text.Printable

/-!
# Quoted text

How a text is shown inside a message or a journal line: between quotes, on one
line, with everything that is not printable spelled by its code point. The
backslash, the quote in use and the three common control characters have short
escapes; every other escape has a fixed number of hexadecimal digits.
-/

namespace PostfixArithmetic.Quoted

/-- The last `width` hexadecimal digits of a number, most significant first. -/
def hexDigits : Nat → Nat → List Char
  | 0, _ => []
  | width + 1, n => hexDigits width (n / 16) ++ [Nat.digitChar (n % 16)]

/-- The quote around a text: a double quote if the text holds a single quote and
no double quote, and a single quote otherwise. -/
def delimiter (text : List Char) : Char :=
  if '\x27' ∈ text ∧ '\x22' ∉ text then '\x22' else '\x27'

/-- One character between quotes of the given kind. -/
def escape (quote c : Char) : List Char :=
  if c = quote ∨ c = '\x5C' then ['\x5C', c]
  else if c = '\n' then ['\x5C', 'n']
  else if c = '\r' then ['\x5C', 'r']
  else if c = '\t' then ['\x5C', 't']
  else if isPrintable c then [c]
  else if c.toNat < 0x100 then '\x5C' :: 'x' :: hexDigits 2 c.toNat
  else if c.toNat < 0x10000 then '\x5C' :: 'u' :: hexDigits 4 c.toNat
  else '\x5C' :: 'U' :: hexDigits 8 c.toNat

/-- The characters of a quoted text, quotes included. -/
def encode (text : List Char) : List Char :=
  delimiter text :: text.flatMap (escape (delimiter text)) ++ [delimiter text]

/-- A text in quotes. -/
def quote (text : String) : String :=
  String.ofList (encode text.toList)

/-- A single quote alone changes the delimiter, and both kinds together do not. -/
example : quote "it\x27s" = "\"it\x27s\"" ∧ quote "\x27\"" = "\x27\\\x27\"\x27" := by
  decide +kernel

/-- Three widths of escapes. -/
example : quote "\x85\u2028\n" = "\x27\\x85\\u2028\\n\x27" := by decide +kernel

/-- A hexadecimal number of fixed width has that many digits. -/
theorem length_hexDigits (width n : Nat) : (hexDigits width n).length = width := by
  induction width generalizing n with
  | zero => rfl
  | succ width ih => simp [hexDigits, ih]

end PostfixArithmetic.Quoted
