import PostfixArithmetic.Number.Written
import PostfixArithmetic.Proofs.Number.Digits
import PostfixArithmetic.Text.Quoted

/-!
# Texts of printable characters

Quoted texts and written numbers are made of printable characters only, whatever they
stand for, so a message or an answer put together from them is a single line.
-/

namespace PostfixArithmetic

/-- All characters of a text are printable. -/
def Printed (text : String) : Prop :=
  ∀ c ∈ text.toList, isPrintable c = true

namespace Printed

/-- A printed text has no line feed. -/
theorem newline_not_mem {text : String} (h : Printed text) : '\n' ∉ text.toList := fun hm =>
  Bool.false_ne_true (h '\n' hm)

/-- Printed texts may be put together. -/
theorem append {a b : String} (ha : Printed a) (hb : Printed b) : Printed (a ++ b) := by
  intro c hc
  rw [String.toList_append] at hc
  exact (List.mem_append.mp hc).elim (ha c) (hb c)

/-- Printed texts may be put together with a printed text between them. -/
theorem intercalate {between : String} {texts : List String} (hb : Printed between)
    (ht : ∀ t ∈ texts, Printed t) : Printed (between.intercalate texts) := by
  induction texts with
  | nil =>
    intro c hc
    rw [String.intercalate_nil] at hc
    cases hc
  | cons t texts ih =>
    obtain ⟨hfirst, hrest⟩ := List.forall_mem_cons.mp ht
    cases texts with
    | nil =>
      rw [String.intercalate_singleton]
      exact hfirst
    | cons u texts =>
      rw [String.intercalate_cons_cons]
      exact (hfirst.append hb).append (ih hrest)

end Printed

/-- A digit is printable. -/
theorem isPrintable_of_isAsciiDigit {c : Char} (h : isAsciiDigit c = true) :
    isPrintable c = true := by
  simp only [isAsciiDigit, Bool.and_eq_true, decide_eq_true_eq] at h
  exact isPrintable_of_ascii (by omega) (by omega)

namespace Quoted

/-- A hexadecimal digit is printable. -/
theorem isPrintable_digitChar {n : Nat} (h : n < 16) : isPrintable (Nat.digitChar n) = true := by
  have hall : ∀ m < 16, isPrintable (Nat.digitChar m) = true := by decide
  exact hall n h

/-- So are all digits of a hexadecimal number. -/
theorem isPrintable_hexDigits {width n : Nat} :
    ∀ c ∈ hexDigits width n, isPrintable c = true := by
  induction width generalizing n with
  | zero =>
    intro c hc
    cases hc
  | succ width ih =>
    intro c hc
    rcases List.mem_append.mp hc with hc | hc
    · exact ih c hc
    · rw [List.mem_singleton.mp hc]
      exact isPrintable_digitChar (Nat.mod_lt n (by decide))

/-- The backslash, a letter and hexadecimal digits are printable. -/
theorem isPrintable_spelled {letter : Char} {width n : Nat} (h : isPrintable letter = true) :
    ∀ c ∈ '\x5C' :: letter :: hexDigits width n, isPrintable c = true :=
  List.forall_mem_cons.mpr ⟨rfl, List.forall_mem_cons.mpr ⟨h, isPrintable_hexDigits⟩⟩

/-- Any character is spelled by printable ones. -/
theorem isPrintable_escape {quote : Char} (hq : isPrintable quote = true) (c : Char) :
    ∀ d ∈ escape quote c, isPrintable d = true := by
  have hpair : ∀ letter, isPrintable letter = true →
      ∀ d ∈ ['\x5C', letter], isPrintable d = true := fun letter hl =>
    List.forall_mem_cons.mpr ⟨rfl, List.forall_mem_singleton.mpr hl⟩
  unfold escape
  split
  · rename_i hc
    refine hpair c ?_
    rcases hc with rfl | rfl
    · exact hq
    · rfl
  · split
    · exact hpair 'n' rfl
    · split
      · exact hpair 'r' rfl
      · split
        · exact hpair 't' rfl
        · split
          · rename_i hc
            exact List.forall_mem_singleton.mpr hc
          · split
            · exact isPrintable_spelled rfl
            · split
              · exact isPrintable_spelled rfl
              · exact isPrintable_spelled rfl

/-- Both kinds of quotes are printable. -/
theorem isPrintable_delimiter (text : List Char) : isPrintable (delimiter text) = true := by
  unfold delimiter
  split <;> rfl

/-- A quoted text is printed, whatever it quotes. -/
theorem printed_quote (text : String) : Printed (quote text) := by
  have hd := isPrintable_delimiter text.toList
  intro c hc
  rw [quote, String.toList_ofList, encode, List.cons_append] at hc
  rcases List.mem_cons.mp hc with rfl | hc
  · exact hd
  · rcases List.mem_append.mp hc with hc | hc
    · obtain ⟨d, -, hc⟩ := List.mem_flatMap.mp hc
      exact isPrintable_escape hd d c hc
    · rw [List.mem_singleton.mp hc]
      exact hd

end Quoted

namespace Written

/-- The characters that numbers are written with. -/
def alphabet : List Char :=
  "0123456789.e+-infa".toList

/-- A decimal digit is in the alphabet. -/
theorem digitChar_mem_alphabet {n : Nat} (h : n < 10) : Nat.digitChar n ∈ alphabet := by
  have hall : ∀ m < 10, Nat.digitChar m ∈ alphabet := by decide
  exact hall n h

/-- So are all digits of a natural number. -/
theorem decimalDigits_subset (n : Nat) : decimalDigits n ⊆ alphabet := by
  induction n using Nat.strongRecOn with
  | ind n ih =>
    rw [decimalDigits]
    split
    · rename_i hn
      exact List.cons_subset.mpr ⟨digitChar_mem_alphabet hn, List.nil_subset _⟩
    · rename_i hn
      have hlast := digitChar_mem_alphabet (Nat.mod_lt n (by decide : 0 < 10))
      exact List.append_subset.mpr ⟨ih (n / 10) (by omega),
        List.cons_subset.mpr ⟨hlast, List.nil_subset _⟩⟩

/-- Zeros are in the alphabet. -/
theorem replicate_zero_subset (count : Nat) : List.replicate count '0' ⊆ alphabet := by
  intro c hc
  rw [List.eq_of_mem_replicate hc]
  decide

/-- Digits with a point are in the alphabet. -/
theorem plain_subset {digits : List Char} (h : digits ⊆ alphabet) (leading : Int) :
    plain digits leading ⊆ alphabet := by
  have hzeros := replicate_zero_subset
  unfold plain
  split
  · exact List.append_subset.mpr ⟨List.cons_subset.mpr ⟨by decide,
      List.cons_subset.mpr ⟨by decide, hzeros _⟩⟩, h⟩
  · have hwhole := fun places => List.Subset.trans (List.take_subset places digits) h
    have hfraction := fun places => List.Subset.trans (List.drop_subset places digits) h
    refine List.append_subset.mpr ⟨List.append_subset.mpr ⟨hwhole _, hzeros _⟩,
      List.cons_subset.mpr ⟨by decide, ?_⟩⟩
    split
    · exact List.cons_subset.mpr ⟨by decide, List.nil_subset _⟩
    · exact hfraction _

/-- Digits with an exponent are in the alphabet. -/
theorem scientific_subset {digits : List Char} (h : digits ⊆ alphabet) (width : Nat)
    (leading : Int) : scientific width digits leading ⊆ alphabet := by
  have hfirst := List.Subset.trans (List.take_subset 1 digits) h
  have hfraction := List.Subset.trans (List.drop_subset 1 digits) h
  have hzeros := replicate_zero_subset (width - (decimalDigits leading.natAbs).length)
  have hpoint : (if digits.drop 1 = [] then [] else '.' :: digits.drop 1) ⊆ alphabet := by
    split
    · exact List.nil_subset _
    · exact List.cons_subset.mpr ⟨by decide, hfraction⟩
  have hsign : (if leading < 0 then '-' else '+') ∈ alphabet := by
    split <;> decide
  exact List.append_subset.mpr ⟨List.append_subset.mpr ⟨List.append_subset.mpr ⟨hfirst, hpoint⟩,
    List.cons_subset.mpr ⟨by decide, List.cons_subset.mpr ⟨hsign, hzeros⟩⟩⟩,
    decimalDigits_subset leading.natAbs⟩

/-- Whatever the number, it is written with the characters of the alphabet. -/
theorem characters_subset (x : Float) : characters x ⊆ alphabet := by
  have hmagnitude : ∀ pattern, magnitude pattern ⊆ alphabet := by
    intro pattern
    unfold magnitude
    split
    · decide
    · unfold Layout.decimal
      dsimp only
      split
      · exact plain_subset (decimalDigits_subset _) _
      · exact scientific_subset (decimalDigits_subset _) _ _
  unfold characters
  dsimp only
  split
  · decide
  · split
    · exact List.cons_subset.mpr ⟨by decide, hmagnitude _⟩
    · exact hmagnitude _

/-- A written number is printed. -/
theorem printed_number (x : Float) : Printed (number x) := by
  have hall : alphabet.all isPrintable = true := by decide
  intro c hc
  rw [number, String.toList_ofList] at hc
  exact List.all_eq_true.mp hall c (characters_subset x hc)

end Written

/-- A natural number is printed. -/
theorem printed_repr (n : Nat) : Printed n.repr := fun _ hc =>
  isPrintable_of_isAsciiDigit (isAsciiDigit_of_mem_repr hc)

/-- So is an integer, with or without a sign. -/
theorem printed_toString (n : Int) : Printed (toString n) := by
  have hdash : Printed "-" := List.forall_mem_singleton.mpr rfl
  rw [Int.toString_eq_repr, Int.repr_eq_if]
  split
  · exact printed_repr _
  · exact hdash.append (printed_repr _)

end PostfixArithmetic
