import PostfixArithmetic.Failure
import PostfixArithmetic.Proofs.Text.Printed

/-!
# Reading quoted text back

Between quotes each character is spelled in a way that tells where its spelling ends, and no
spelling starts with the quote in use. So a quoted text ends where it says, whatever stands
behind it, even if that looks like more of the text, and it tells which text was quoted. A
complaint about a character is a quoted text between fixed words, with a number behind it,
so it tells both the character and the position.
-/

namespace PostfixArithmetic

namespace Quoted

/-- The value of a hexadecimal digit. -/
def hexValue (c : Char) : Nat :=
  if isAsciiDigit c then digitValue c else c.toNat - 0x57

/-- The number that hexadecimal digits write, most significant digit first. -/
def ofHexDigits (digits : List Char) : Nat :=
  digits.foldl (fun value c => 16 * value + hexValue c) 0

/-- The character that is spelled behind a backslash, and the text behind the spelling. -/
def unescape? : List Char → Option (Char × List Char)
  | [] => none
  | letter :: rest =>
    if letter = 'n' then some ('\n', rest)
    else if letter = 'r' then some ('\r', rest)
    else if letter = 't' then some ('\t', rest)
    else if letter = 'x' then some (Char.ofNat (ofHexDigits (rest.take 2)), rest.drop 2)
    else if letter = 'u' then some (Char.ofNat (ofHexDigits (rest.take 4)), rest.drop 4)
    else if letter = 'U' then some (Char.ofNat (ofHexDigits (rest.take 8)), rest.drop 8)
    else some (letter, rest)

/-- The character that is spelled first in a text between quotes of the given kind, and the
text behind its spelling. At the closing quote there is none. -/
def character? (quote : Char) : List Char → Option (Char × List Char)
  | [] => none
  | c :: rest =>
    if c = '\x5C' then unescape? rest
    else if c = quote then none
    else some (c, rest)

/-- A hexadecimal digit has its value. -/
theorem hexValue_digitChar {n : Nat} (h : n < 16) : hexValue (Nat.digitChar n) = n := by
  have hall : ∀ m < 16, hexValue (Nat.digitChar m) = m := by decide
  exact hall n h

/-- Digits of a fixed width write the number that they are made from, as far as they reach. -/
theorem ofHexDigits_hexDigits (width n : Nat) :
    ofHexDigits (hexDigits width n) = n % 16 ^ width := by
  induction width generalizing n with
  | zero => rw [pow_zero, Nat.mod_one]; rfl
  | succ width ih =>
    have hlast := hexValue_digitChar (Nat.mod_lt n (by decide : 0 < 16))
    have hfirst : List.foldl (fun value c => 16 * value + hexValue c) 0 (hexDigits width (n / 16)) =
        n / 16 % 16 ^ width := ih (n / 16)
    rw [ofHexDigits, hexDigits, List.foldl_append, hfirst, List.foldl_cons, List.foldl_nil, hlast,
      pow_succ', Nat.mod_mul, Nat.add_comm]

/-- A character whose code has so many digits is read back from them. -/
theorem ofNat_take_hexDigits {c : Char} {width : Nat} (h : c.toNat < 16 ^ width)
    (rest : List Char) :
    Char.ofNat (ofHexDigits ((hexDigits width c.toNat ++ rest).take width)) = c ∧
      (hexDigits width c.toNat ++ rest).drop width = rest := by
  have hl := length_hexDigits width c.toNat
  rw [List.take_left' hl, List.drop_left' hl, ofHexDigits_hexDigits, Nat.mod_eq_of_lt h,
    Char.ofNat_toNat]
  exact ⟨rfl, rfl⟩

/-- A spelling with hexadecimal digits is read back, if the code has so many digits. -/
theorem unescape?_hexDigits {letter : Char} {width : Nat}
    (hl : (letter, width) ∈ [('x', 2), ('u', 4), ('U', 8)]) {c : Char} (h : c.toNat < 16 ^ width)
    (rest : List Char) :
    unescape? (letter :: (hexDigits width c.toNat ++ rest)) = some (c, rest) := by
  obtain ⟨hread, hdrop⟩ := ofNat_take_hexDigits h rest
  simp only [List.mem_cons, List.not_mem_nil, or_false, Prod.mk.injEq] at hl
  rcases hl with ⟨rfl, rfl⟩ | ⟨rfl, rfl⟩ | ⟨rfl, rfl⟩
  all_goals simp [unescape?, hread, hdrop]

/-- Every character has at most eight digits. -/
theorem toNat_lt_of_char (c : Char) : c.toNat < 16 ^ 8 := by
  have hv := c.valid
  simp only [UInt32.isValidChar, Nat.isValidChar] at hv
  have hn : c.toNat = c.val.toNat := rfl
  omega

/-- The first character between quotes is read back from its spelling, whatever follows. -/
theorem character?_escape {quote : Char} (hq : quote = '\x27' ∨ quote = '\x22') (c : Char)
    (rest : List Char) : character? quote (escape quote c ++ rest) = some (c, rest) := by
  have hbackslash : ∀ text, character? quote ('\x5C' :: text) = unescape? text := fun text => by
    rw [character?, if_pos rfl]
  unfold escape
  split_ifs with hpair hn hr ht hprintable hbyte hshort
  · rcases hpair with rfl | rfl
    · rcases hq with rfl | rfl <;> rfl
    · rfl
  · rw [hn]
    rfl
  · rw [hr]
    rfl
  · rw [ht]
    rfl
  · rw [not_or] at hpair
    rw [List.singleton_append, character?, if_neg hpair.2, if_neg hpair.1]
  · exact (hbackslash _).trans (unescape?_hexDigits (by decide) hbyte rest)
  · exact (hbackslash _).trans (unescape?_hexDigits (by decide) hshort rest)
  · exact (hbackslash _).trans (unescape?_hexDigits (by decide) (toNat_lt_of_char c) rest)

/-- At the closing quote there is no character. -/
theorem character?_quote {quote : Char} (hq : quote = '\x27' ∨ quote = '\x22')
    (rest : List Char) : character? quote (quote :: rest) = none := by
  rcases hq with rfl | rfl <;> rfl

/-- The quote around a text is a single or a double one. -/
theorem delimiter_eq_or (text : List Char) :
    delimiter text = '\x27' ∨ delimiter text = '\x22' := by
  unfold delimiter
  split
  · exact Or.inr rfl
  · exact Or.inl rfl

/-- Characters between quotes end at the closing quote, and tell what is spelled. -/
theorem flatMap_escape_inj {quote : Char} (hq : quote = '\x27' ∨ quote = '\x22')
    {a b x y : List Char}
    (h : a.flatMap (escape quote) ++ quote :: x = b.flatMap (escape quote) ++ quote :: y) :
    a = b ∧ x = y := by
  have hread := congrArg (character? quote) h
  induction a generalizing b with
  | nil =>
    cases b with
    | nil => exact ⟨rfl, (List.cons.inj h).2⟩
    | cons d b =>
      rw [List.flatMap_nil, List.nil_append, character?_quote hq, List.flatMap_cons,
        List.append_assoc, character?_escape hq] at hread
      cases hread
  | cons c a ih =>
    rw [List.flatMap_cons, List.append_assoc, character?_escape hq] at hread
    cases b with
    | nil =>
      rw [List.flatMap_nil, List.nil_append, character?_quote hq] at hread
      cases hread
    | cons d b =>
      rw [List.flatMap_cons, List.append_assoc, character?_escape hq] at hread
      obtain ⟨hchar, hrest⟩ := Prod.mk.inj (Option.some.inj hread)
      obtain ⟨hab, hxy⟩ := ih hrest (congrArg (character? quote) hrest)
      exact ⟨congrArg₂ List.cons hchar hab, hxy⟩

/-- A quoted text tells which text is quoted and where it ends, whatever stands behind it. -/
theorem encode_append_inj {a b x y : List Char} (h : encode a ++ x = encode b ++ y) :
    a = b ∧ x = y := by
  simp only [encode, List.cons_append, List.append_assoc, List.nil_append] at h
  obtain ⟨hdelimiter, hbody⟩ := List.cons.inj h
  rw [← hdelimiter] at hbody
  exact flatMap_escape_inj (delimiter_eq_or a) hbody

/-- The same holds for texts. -/
theorem quote_append_inj {a b x y : String} (h : quote a ++ x = quote b ++ y) :
    a = b ∧ x = y := by
  have hl := congrArg String.toList h
  rw [String.toList_append, String.toList_append, quote, quote, String.toList_ofList,
    String.toList_ofList] at hl
  obtain ⟨hab, hxy⟩ := encode_append_inj hl
  exact ⟨String.toList_inj.mp hab, String.toList_inj.mp hxy⟩

end Quoted

/-- An integer is told by the text that it is shown with. -/
theorem toString_inj {m n : Int} (h : toString m = toString n) : m = n := by
  rw [Int.toString_eq_repr, Int.toString_eq_repr] at h
  exact Int.repr_inj.mp h

namespace Diagnostic

/-- A complaint about a character is printed, whatever is complained of. -/
theorem printed_unrecognized (position : Int) (character : String) :
    Printed (unrecognized position character).message := by
  have hfirst : Printed "unrecognized character " := List.all_eq_true.mp (by decide)
  have hsecond : Printed " at position " := List.all_eq_true.mp (by decide)
  exact ((hfirst.append (Quoted.printed_quote _)).append hsecond).append (printed_toString _)

/-- The message is fixed words, the quoted character, fixed words again and the position. -/
theorem message_unrecognized (position : Int) (character : String) :
    (unrecognized position character).message =
      "unrecognized character " ++
        (Quoted.quote character ++ (" at position " ++ toString position)) := by
  have hmessage : (unrecognized position character).message =
      "unrecognized character " ++ Quoted.quote character ++ " at position " ++
        toString position := rfl
  rw [hmessage, String.append_assoc, String.append_assoc]

/-- The quoted character may look like the rest of a message. -/
example : (unrecognized (-3) "\x27 at position 1").message =
    "unrecognized character \"\x27 at position 1\" at position -3" := by decide +kernel

/-- Complaints with the same message are about the same character at the same position,
whatever that character is spelled with and whatever text it is, even one that looks like
the rest of a message. The message is on one line and shows printable characters only. -/
theorem message_unrecognized_eq_iff (position other : Int) (character another : String) :
    ((unrecognized position character).message = (unrecognized other another).message ↔
      position = other ∧ character = another) ∧
      Printed (unrecognized position character).message ∧
      '\n' ∉ (unrecognized position character).message.toList := by
  have hprinted := printed_unrecognized position character
  refine ⟨?_, hprinted, hprinted.newline_not_mem⟩
  constructor
  · intro h
    rw [message_unrecognized, message_unrecognized] at h
    -- the fixed words in front are the same, and the quoted text tells where it ends
    have hquoted := (String.append_right_inj _).mp h
    obtain ⟨hcharacter, hrest⟩ := Quoted.quote_append_inj hquoted
    exact ⟨toString_inj ((String.append_right_inj _).mp hrest), hcharacter⟩
  · rintro ⟨hposition, hcharacter⟩
    rw [hposition, hcharacter]

end Diagnostic

end PostfixArithmetic
