import PostfixArithmetic.Text.CodeRange

/-!
# Blank characters

The characters that separate the pieces of an expression: the white space of
Unicode together with the four information separators `U+001C` to `U+001F`.
A narrower class, the ASCII blanks, is what a numeral may be surrounded by.
-/

namespace PostfixArithmetic

/-- The blank characters as ranges of code points. -/
def blankRanges : List CodeRange :=
  [⟨0x9, 0xD⟩, ⟨0x1C, 0x20⟩, ⟨0x85, 0x85⟩, ⟨0xA0, 0xA0⟩, ⟨0x1680, 0x1680⟩, ⟨0x2000, 0x200A⟩,
    ⟨0x2028, 0x2029⟩, ⟨0x202F, 0x202F⟩, ⟨0x205F, 0x205F⟩, ⟨0x3000, 0x3000⟩]

/-- Whether a character is blank. -/
def isBlank (c : Char) : Bool :=
  CodeRange.covers blankRanges c

/-- Whether a character is one of the six ASCII blanks: the space, and tab to
carriage return. -/
def isAsciiBlank (c : Char) : Bool :=
  c.toNat = 0x20 || (0x9 ≤ c.toNat && c.toNat ≤ 0xD)

/-- The characters that are left when those of a class are taken off both ends. -/
def trimBoth (drop : Char → Bool) (text : List Char) : List Char :=
  ((text.dropWhile drop).reverse.dropWhile drop).reverse

end PostfixArithmetic
