import PostfixArithmetic.Proofs.Lexer.Alphabet

/-!
# Rendering tokens

A token sequence is rendered by writing every operator as its symbol and every
operand as the digits of its natural number, with leading zeros and blanks at will;
only between two operands a blank is needed. Splitting a rendering into tokens gives
the sequence back, and no text has tokens beyond those that can be rendered, except
for numerals that overflow to infinity.
-/

namespace PostfixArithmetic

/-- The ways to write a token. -/
inductive Spells : Token → List Char → Prop where
  /-- An operator is written as its symbol. -/
  | operator (operation : Operation) :
    Spells (.operator operation.symbol) operation.symbol.toList
  /-- A natural number is written as its digits behind any number of zeros. -/
  | operand {x : Float} {n : Nat} (natural : IsNatural x n) (zeros : Nat) :
    Spells (.operand x) (paddedDigits zeros n)

/-- A token of a rendering, with the blanks in front of it. -/
structure Piece where
  /-- What stands between the token and the one before it. -/
  gap : List Char
  /-- The token. -/
  token : Token
  /-- The token as it is written. -/
  spelling : List Char
  /-- The gap holds blanks only. -/
  blank : ∀ c ∈ gap, isBlank c = true
  /-- The token may be written so. -/
  spells : Spells token spelling

namespace Piece

/-- The text of some pieces with what stands behind the last of them. -/
def render (pieces : List Piece) (last : List Char) : List Char :=
  pieces.flatMap (fun piece => piece.gap ++ piece.spelling) ++ last

/-- Between two neighbouring operands the gap is not empty. -/
def Separated (pieces : List Piece) : Prop :=
  pieces.IsChain fun earlier later =>
    earlier.token.isOperand = true → later.token.isOperand = true → later.gap ≠ []

/-- The first piece is rendered before the others. -/
theorem render_cons (piece : Piece) (pieces : List Piece) (last : List Char) :
    render (piece :: pieces) last = piece.gap ++ (piece.spelling ++ render pieces last) := by
  rw [render, List.flatMap_cons, List.append_assoc, List.append_assoc, render]

end Piece

/-- All blanks of a gap are dropped. -/
theorem scan_gap {gap : List Char} (h : ∀ c ∈ gap, isBlank c = true) (position : Nat)
    (rest : List Char) :
    scan Rule.standard position (gap ++ rest) =
      scan Rule.standard (position + gap.length) rest := by
  induction gap generalizing position with
  | nil => rfl
  | cons c gap ih =>
    obtain ⟨hc, hgap⟩ := List.forall_mem_cons.mp h
    rw [List.cons_append, scan_blank hc, ih hgap, List.length_cons, Nat.add_right_comm,
      Nat.add_assoc]

/-- A spelled token comes before those of the rest, if no digit touches a numeral. -/
theorem scan_spelling {token : Token} {spelling rest : List Char} (h : Spells token spelling)
    (hr : token.isOperand = true → NoDigitFirst rest) (position : Nat) :
    scan Rule.standard position (spelling ++ rest) =
      (scan Rule.standard (position + spelling.length) rest).prepend [token] := by
  cases h with
  | operator operation =>
    obtain ⟨c, hc, hs⟩ := operation.exists_sign
    rw [hs, String.toList_singleton]
    exact scan_sign hc position rest
  | @operand x n natural zeros =>
    have hd : ∀ c ∈ paddedDigits zeros n, isAsciiDigit c = true :=
      fun c => isAsciiDigit_of_mem_paddedDigits
    have hne : paddedDigits zeros n ≠ [] :=
      List.append_ne_nil_of_right_ne_nil _ Nat.toDigits_ne_nil
    have hx : Numeral.ofDigits (paddedDigits zeros n) = x :=
      Numeral.ofDigits_of_isNatural (by rw [digitsValue_paddedDigits]; exact natural)
    rw [scan_digits hne hd (hr rfl), hx]

/-- A spelling that is no operand does not start with a digit. -/
theorem noDigitFirst_of_spells {token : Token} {spelling : List Char}
    (h : Spells token spelling) (ho : token.isOperand = false) (rest : List Char) :
    NoDigitFirst (spelling ++ rest) := by
  cases h with
  | operator operation =>
    obtain ⟨c, hc, hs⟩ := operation.exists_sign
    rw [hs, String.toList_singleton]
    intro d hd
    cases hd
    exact isAsciiDigit_of_isOperatorSign hc
  | operand natural zeros => cases ho

/-- Blanks in front keep digits away. -/
theorem noDigitFirst_of_blank {gap : List Char} (h : ∀ c ∈ gap, isBlank c = true)
    (hne : gap ≠ []) (rest : List Char) : NoDigitFirst (gap ++ rest) := by
  obtain ⟨c, gap, rfl⟩ := List.exists_cons_of_ne_nil hne
  intro d hd
  cases hd
  exact isAsciiDigit_of_isBlank (h c List.mem_cons_self)

namespace Piece

/-- Behind an operand no rendering starts with a digit. -/
theorem noDigitFirst_render {piece : Piece} {pieces : List Piece} {last : List Char}
    (hs : Separated (piece :: pieces)) (hl : ∀ c ∈ last, isBlank c = true)
    (ho : piece.token.isOperand = true) : NoDigitFirst (render pieces last) := by
  cases pieces with
  | nil =>
    intro d hd
    exact isAsciiDigit_of_isBlank (hl d (List.mem_of_mem_head? hd))
  | cons later pieces =>
    have hapart := List.IsChain.rel hs
    rw [render_cons]
    by_cases hg : later.gap = []
    · rw [hg, List.nil_append]
      refine noDigitFirst_of_spells later.spells (Bool.eq_false_iff.mpr fun ht => ?_) _
      exact hapart ho ht hg
    · exact noDigitFirst_of_blank later.blank hg _

/-- A rendering is scanned into the tokens of its pieces. -/
theorem scan_render {pieces : List Piece} {last : List Char} (hs : Separated pieces)
    (hl : ∀ c ∈ last, isBlank c = true) (position : Nat) :
    (scan Rule.standard position (render pieces last)).outcome = .ok (pieces.map (·.token)) := by
  induction pieces generalizing position with
  | nil =>
    have hg := scan_gap hl position []
    rw [List.append_nil] at hg
    rw [render, List.flatMap_nil, List.nil_append, hg, scan]
    rfl
  | cons piece pieces ih =>
    have hd := noDigitFirst_render hs hl
    rw [render_cons, scan_gap piece.blank, scan_spelling piece.spells hd, Scan.prepend,
      ih hs.tail]
    rfl

end Piece

/-- The tokens that a text may have: operators, and operands that are infinite or a
natural number. -/
def Token.IsLexical (token : Token) : Prop :=
  (∃ operation : Operation, token = .operator operation.symbol) ∨
    ∃ x, token = .operand x ∧
      (x = BitPattern.toFloat false BitPattern.infinity ∨ ∃ n, IsNatural x n)

/-- The tokens of a scan with others in front are the others and its own. -/
theorem Scan.exists_of_prepend {earlier tokens : List Token} {later : Scan}
    (h : (later.prepend earlier).outcome = .ok tokens) :
    ∃ others, later.outcome = .ok others ∧ tokens = earlier ++ others := by
  rw [prepend] at h
  cases ho : later.outcome with
  | error failure =>
    rw [ho] at h
    cases h
  | ok others =>
    rw [ho] at h
    cases h
    exact ⟨others, rfl, rfl⟩

/-- A scan has lexical tokens only. -/
theorem isLexical_of_scan (text : List Char) :
    ∀ {position : Nat} {tokens : List Token},
      (scan Rule.standard position text).outcome = .ok tokens →
        ∀ token ∈ tokens, token.IsLexical := by
  induction text using piece_induction with
  | nil =>
    intro position tokens h
    rw [scan] at h
    cases h
    intro token ht
    exact absurd ht List.not_mem_nil
  | blank c rest hc ih =>
    intro position tokens h
    rw [scan_blank hc] at h
    exact ih h
  | sign c rest hc ih =>
    intro position tokens h
    rw [scan_sign hc] at h
    obtain ⟨others, ho, rfl⟩ := Scan.exists_of_prepend h
    obtain ⟨operation, hs⟩ := exists_operation_of_sign hc
    exact List.forall_mem_cons.mpr ⟨Or.inl ⟨operation, by rw [hs]⟩, ih ho⟩
  | digits run rest hne hd hr ih =>
    intro position tokens h
    rw [scan_digits hne hd hr] at h
    obtain ⟨others, ho, rfl⟩ := Scan.exists_of_prepend h
    exact List.forall_mem_cons.mpr ⟨Or.inr ⟨_, rfl, Numeral.ofDigits_cases run⟩, ih ho⟩
  | foreign c rest hc =>
    intro position tokens h
    rw [scan_foreign hc] at h
    cases h

/-- Splitting a rendering into tokens gives back what was rendered, whatever the
zeros and blanks. The tokens of any text are operators, and operands that are
infinite or a natural number. -/
theorem tokenize_rendering :
    (∀ (pieces : List Piece) (last : List Char), Piece.Separated pieces →
      (∀ c ∈ last, isBlank c = true) →
        tokenize (String.ofList (Piece.render pieces last)) = .ok (pieces.map (·.token))) ∧
    ∀ (text : String) (tokens : List Token), tokenize text = .ok tokens →
      ∀ token ∈ tokens, token.IsLexical := by
  refine ⟨fun pieces last hs hl => ?_, fun text tokens h => isLexical_of_scan _ h⟩
  rw [tokenize, tokenizeWith, String.toList_ofList]
  exact Piece.scan_render hs hl 0

/-- Zeros in front, an operator that touches its neighbours, and a blank that is not
ASCII: the number seven, minus, the number ten. -/
theorem tokenize_seven_minus_ten :
    tokenize " 007-\u2003 10" = .ok [.operand 7, .operator "-", .operand 10] := by
  have h7 : IsNatural 7 7 := ⟨by decide +kernel, by decide +kernel, by decide +kernel⟩
  have h10 : IsNatural 10 10 := ⟨by decide +kernel, by decide +kernel, by decide +kernel⟩
  have hspace : ∀ c ∈ [' '], isBlank c = true := List.forall_mem_singleton.mpr rfl
  have hquad : ∀ c ∈ ['\u2003', ' '], isBlank c = true := List.forall_mem_cons.mpr ⟨rfl, hspace⟩
  have hs : Piece.Separated
      [⟨[' '], .operand 7, paddedDigits 2 7, hspace, .operand h7 2⟩,
        ⟨[], .operator "-", ['-'], List.forall_mem_nil _, .operator .sub⟩,
        ⟨['\u2003', ' '], .operand 10, paddedDigits 0 10, hquad, .operand h10 0⟩] := by
    simp [Piece.Separated, Token.isOperand]
  refine (congrArg tokenize ?_).trans (tokenize_rendering.1 _ [] hs (List.forall_mem_nil _))
  simp only [Piece.render, List.flatMap_cons, List.flatMap_nil]
  decide +kernel

end PostfixArithmetic
