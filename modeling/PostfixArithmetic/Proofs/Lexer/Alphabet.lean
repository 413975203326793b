import PostfixArithmetic.Lexer.Scan
import PostfixArithmetic.Machine.Operation
import PostfixArithmetic.Proofs.Number.Digits

/-!
# The pieces of a text

Every character is a digit, the sign of an operator, a blank or foreign. The
standard table splits a text accordingly: a blank is dropped, a sign is an operator
by itself, a run of digits that no digit follows is an operand, and a foreign
character ends the scan. An induction over these pieces covers every text.
-/

namespace PostfixArithmetic

/-- Whether a character is the sign of an operator. -/
def isOperatorSign (c : Char) : Bool :=
  c = '+' || c = '-' || c = '*' || c = '/'

/-- Whether a character has no place in an expression. -/
def isForeign (c : Char) : Bool :=
  !(isAsciiDigit c || isOperatorSign c || isBlank c)

/-- The text is empty or starts with something else than a digit. -/
def NoDigitFirst (text : List Char) : Prop :=
  ∀ c ∈ text.head?, isAsciiDigit c = false

/-- A sign is one of four characters. -/
theorem isOperatorSign_iff {c : Char} :
    isOperatorSign c = true ↔ c = '+' ∨ c = '-' ∨ c = '*' ∨ c = '/' := by
  simp only [isOperatorSign, Bool.or_eq_true, decide_eq_true_eq, or_assoc]

/-- The symbol of an operation is a single sign. -/
theorem Operation.exists_sign (operation : Operation) :
    ∃ c, isOperatorSign c = true ∧ operation.symbol = String.singleton c := by
  cases operation with
  | add => exact ⟨'+', rfl, rfl⟩
  | sub => exact ⟨'-', rfl, rfl⟩
  | mul => exact ⟨'*', rfl, rfl⟩
  | div => exact ⟨'/', rfl, rfl⟩

/-- A sign is the symbol of an operation. -/
theorem exists_operation_of_sign {c : Char} (h : isOperatorSign c = true) :
    ∃ operation : Operation, operation.symbol = String.singleton c := by
  rcases isOperatorSign_iff.mp h with rfl | rfl | rfl | rfl
  · exact ⟨.add, rfl⟩
  · exact ⟨.sub, rfl⟩
  · exact ⟨.mul, rfl⟩
  · exact ⟨.div, rfl⟩

/-- A sign is not a digit. -/
theorem isAsciiDigit_of_isOperatorSign {c : Char} (h : isOperatorSign c = true) :
    isAsciiDigit c = false := by
  rcases isOperatorSign_iff.mp h with rfl | rfl | rfl | rfl <;> rfl

/-- A sign is not a blank. -/
theorem isBlank_of_isOperatorSign {c : Char} (h : isOperatorSign c = true) :
    isBlank c = false := by
  rcases isOperatorSign_iff.mp h with rfl | rfl | rfl | rfl <;> rfl

/-- A digit is not a sign. -/
theorem isOperatorSign_of_isAsciiDigit {c : Char} (h : isAsciiDigit c = true) :
    isOperatorSign c = false :=
  Bool.eq_false_iff.mpr fun hs => Bool.eq_false_iff.mp (isAsciiDigit_of_isOperatorSign hs) h

/-- A digit is not a blank. -/
theorem isBlank_of_isAsciiDigit {c : Char} (h : isAsciiDigit c = true) : isBlank c = false := by
  simp only [isAsciiDigit, Bool.and_eq_true, decide_eq_true_eq] at h
  by_contra hc
  rw [Bool.not_eq_false, isBlank, CodeRange.covers_iff] at hc
  obtain ⟨range, hr, hlow, hhigh⟩ := hc
  simp only [blankRanges, List.mem_cons, List.not_mem_nil, or_false] at hr
  rcases hr with rfl | rfl | rfl | rfl | rfl | rfl | rfl | rfl | rfl | rfl <;>
    simp only at hlow hhigh <;> omega

/-- A blank is not a sign. -/
theorem isOperatorSign_of_isBlank {c : Char} (h : isBlank c = true) : isOperatorSign c = false :=
  Bool.eq_false_iff.mpr fun hs => Bool.eq_false_iff.mp (isBlank_of_isOperatorSign hs) h

/-- A blank is not a digit. -/
theorem isAsciiDigit_of_isBlank {c : Char} (h : isBlank c = true) : isAsciiDigit c = false :=
  Bool.eq_false_iff.mpr fun hd => Bool.eq_false_iff.mp (isBlank_of_isAsciiDigit hd) h

/-- A digit is not foreign. -/
theorem isForeign_of_isAsciiDigit {c : Char} (h : isAsciiDigit c = true) : isForeign c = false := by
  rw [isForeign, h]
  rfl

/-- A sign is not foreign. -/
theorem isForeign_of_isOperatorSign {c : Char} (h : isOperatorSign c = true) :
    isForeign c = false := by
  rw [isForeign, h, Bool.or_true]
  rfl

/-- A blank is not foreign. -/
theorem isForeign_of_isBlank {c : Char} (h : isBlank c = true) : isForeign c = false := by
  rw [isForeign, h, Bool.or_true]
  rfl

/-- What is left behind the members of a class does not start with one. -/
theorem of_mem_head?_dropWhile {members : Char → Bool} {text : List Char} {c : Char}
    (h : c ∈ (text.dropWhile members).head?) : members c = false := by
  have hn := List.head?_dropWhile_not members text
  rw [h] at hn
  exact hn

/-- The rule of a sign matches it. -/
theorem winner?_sign {c : Char} (h : isOperatorSign c = true) (rest : List Char) :
    winner? Rule.standard (c :: rest) = some ([c], Rule.operator (.literal [c])) := by
  rcases isOperatorSign_iff.mp h with rfl | rfl | rfl | rfl <;> rfl

/-- A literal does not match another first character. -/
theorem piece?_literal_of_ne {a c : Char} (h : a ≠ c) (rest : List Char) :
    (Pattern.literal [a]).piece? (c :: rest) = none := by
  simp [Pattern.piece?, h]

/-- Where there is no sign, the rules of runs decide. -/
theorem winner?_of_not_sign {c : Char} (h : isOperatorSign c = false) (rest : List Char) :
    winner? Rule.standard (c :: rest) = winner? [Rule.digits, Rule.space] (c :: rest) := by
  simp only [isOperatorSign, Bool.or_eq_false_iff, decide_eq_false_iff_not] at h
  obtain ⟨⟨⟨hplus, hminus⟩, htimes⟩, hslash⟩ := h
  simp only [winner?, Rule.standard, List.findSome?_cons, Rule.plus, Rule.minus, Rule.times,
    Rule.slash, Rule.operator, piece?_literal_of_ne (Ne.symm hplus),
    piece?_literal_of_ne (Ne.symm hminus), piece?_literal_of_ne (Ne.symm htimes),
    piece?_literal_of_ne (Ne.symm hslash), Option.map_none]

/-- A run takes all members up to the first character that is none. -/
theorem piece?_run {members : Char → Bool} {run rest : List Char} (hne : run ≠ [])
    (hrun : ∀ c ∈ run, members c = true) (hrest : ∀ c ∈ rest.head?, members c = false) :
    (Pattern.run members 1).piece? (run ++ rest) = some run := by
  simp only [Pattern.piece?, (span_append hrun hrest).1]
  exact if_pos ⟨hne, List.length_pos_iff.mpr hne⟩

/-- A run does not match another first character. -/
theorem piece?_run_of_not {members : Char → Bool} {c : Char} (h : members c = false)
    (rest : List Char) : (Pattern.run members 1).piece? (c :: rest) = none := by
  have htake : (c :: rest).takeWhile members = [] :=
    List.takeWhile_cons_of_neg (by rw [h]; exact Bool.false_ne_true)
  simp only [Pattern.piece?, htake]
  exact if_neg fun hc => hc.1 rfl

/-- Digits that no digit follows are matched by the rule for numerals. -/
theorem winner?_digits {digits rest : List Char} (hne : digits ≠ [])
    (hd : ∀ c ∈ digits, isAsciiDigit c = true) (hr : NoDigitFirst rest) :
    winner? Rule.standard (digits ++ rest) = some (digits, Rule.digits) := by
  obtain ⟨c, run, rfl⟩ := List.exists_cons_of_ne_nil hne
  have hsign := isOperatorSign_of_isAsciiDigit (hd c List.mem_cons_self)
  have hp := piece?_run hne hd hr
  rw [List.cons_append] at hp ⊢
  rw [winner?_of_not_sign hsign, winner?, List.findSome?_cons]
  simp only [Rule.digits, Rule.operand, hp, Option.map_some]

/-- Blanks that no blank follows are matched by the rule for space. -/
theorem winner?_blanks {blanks rest : List Char} (hne : blanks ≠ [])
    (hb : ∀ c ∈ blanks, isBlank c = true) (hr : ∀ c ∈ rest.head?, isBlank c = false) :
    winner? Rule.standard (blanks ++ rest) = some (blanks, Rule.space) := by
  obtain ⟨c, run, rfl⟩ := List.exists_cons_of_ne_nil hne
  have hblank := hb c List.mem_cons_self
  have hsign := isOperatorSign_of_isBlank hblank
  have hdigit := isAsciiDigit_of_isBlank hblank
  have hp := piece?_run hne hb hr
  rw [List.cons_append] at hp ⊢
  rw [winner?_of_not_sign hsign, winner?, List.findSome?_cons, List.findSome?_cons]
  simp only [Rule.digits, Rule.operand, Rule.space, Rule.skip, piece?_run_of_not hdigit, hp,
    Option.map_none, Option.map_some]

/-- No rule matches a foreign character. -/
theorem winner?_foreign {c : Char} (h : isForeign c = true) (rest : List Char) :
    winner? Rule.standard (c :: rest) = none := by
  simp only [isForeign, Bool.not_eq_true', Bool.or_eq_false_iff] at h
  obtain ⟨⟨hdigit, hsign⟩, hblank⟩ := h
  rw [winner?_of_not_sign hsign, winner?, List.findSome?_cons, List.findSome?_cons]
  simp only [Rule.digits, Rule.operand, Rule.space, Rule.skip, piece?_run_of_not hdigit,
    piece?_run_of_not hblank, Option.map_none, List.findSome?_nil]

/-- A scan without tokens in front is the scan. -/
@[simp]
theorem Scan.prepend_nil (later : Scan) : later.prepend [] = later := by
  obtain ⟨outcome, position⟩ := later
  cases outcome with
  | error failure => rfl
  | ok tokens => rfl

/-- A matched piece is taken off the front of the input. -/
theorem scan_piece {rules : List Rule} {piece rest : List Char} {rule : Rule}
    {tokens : List Token} (h : winner? rules (piece ++ rest) = some (piece, rule))
    (built : rule.build (String.ofList piece) = some tokens) (position : Nat) :
    scan rules position (piece ++ rest) =
      (scan rules (position + piece.length) rest).prepend tokens := by
  obtain ⟨hne, -⟩ := Pattern.nonempty_prefix_of_piece (mem_and_piece_of_winner h).2
  have hrest : (piece ++ rest).drop piece.length = rest := List.drop_left
  obtain ⟨c, run, rfl⟩ := List.exists_cons_of_ne_nil hne
  rw [List.cons_append] at h hrest ⊢
  rw [scan_of_winner h built, hrest]

/-- A sign is an operator by itself. -/
theorem scan_sign {c : Char} (h : isOperatorSign c = true) (position : Nat) (rest : List Char) :
    scan Rule.standard position (c :: rest) =
      (scan Rule.standard (position + 1) rest).prepend [.operator (String.singleton c)] := by
  rw [String.singleton_eq_ofList]
  change scan Rule.standard position ([c] ++ rest) = _
  exact scan_piece (winner?_sign h rest) rfl position

/-- Digits that no digit follows are an operand. -/
theorem scan_digits {digits rest : List Char} (hne : digits ≠ [])
    (hd : ∀ c ∈ digits, isAsciiDigit c = true) (hr : NoDigitFirst rest) (position : Nat) :
    scan Rule.standard position (digits ++ rest) =
      (scan Rule.standard (position + digits.length) rest).prepend
        [.operand (Numeral.ofDigits digits)] := by
  refine scan_piece (winner?_digits hne hd hr) ?_ position
  simp only [Rule.digits, Rule.operand, Token.operand?, Numeral.read?_digits hne hd,
    Option.map_some]

/-- Blanks that no blank follows are dropped. -/
theorem scan_blanks {blanks rest : List Char} (hb : ∀ c ∈ blanks, isBlank c = true)
    (hr : ∀ c ∈ rest.head?, isBlank c = false) (position : Nat) :
    scan Rule.standard position (blanks ++ rest) =
      scan Rule.standard (position + blanks.length) rest := by
  by_cases hne : blanks = []
  · rw [hne]
    rfl
  · rw [scan_piece (winner?_blanks hne hb hr) rfl position, Scan.prepend_nil]

/-- A blank is dropped, whether or not more of them follow. -/
theorem scan_blank {c : Char} (h : isBlank c = true) (position : Nat) (rest : List Char) :
    scan Rule.standard position (c :: rest) = scan Rule.standard (position + 1) rest := by
  have hb : ∀ d ∈ rest.takeWhile isBlank, isBlank d = true := fun d => List.mem_takeWhile_imp
  have hr : ∀ d ∈ (rest.dropWhile isBlank).head?, isBlank d = false :=
    fun d => of_mem_head?_dropWhile
  have hall := scan_blanks (List.forall_mem_cons.mpr ⟨h, hb⟩) hr position
  have hmore := scan_blanks hb hr (position + 1)
  rw [List.cons_append, List.takeWhile_append_dropWhile, List.length_cons] at hall
  rw [List.takeWhile_append_dropWhile] at hmore
  rw [hall, hmore, Nat.add_right_comm, Nat.add_assoc]

/-- A foreign character ends the scan. -/
theorem scan_foreign {c : Char} (h : isForeign c = true) (position : Nat) (rest : List Char) :
    scan Rule.standard position (c :: rest) =
      ⟨.error (.diagnostic (.unrecognized position (String.singleton c))), position⟩ :=
  scan_of_no_winner (winner?_foreign h rest) position

/-- A text is empty or starts with a blank, a sign, a run of digits that no digit
follows, or a foreign character. A property of texts that each of these pieces
passes on from the rest of the text holds of every text. -/
@[elab_as_elim]
theorem piece_induction {motive : List Char → Prop} (nil : motive [])
    (blank : ∀ c rest, isBlank c = true → motive rest → motive (c :: rest))
    (sign : ∀ c rest, isOperatorSign c = true → motive rest → motive (c :: rest))
    (digits : ∀ run rest, run ≠ [] → (∀ c ∈ run, isAsciiDigit c = true) → NoDigitFirst rest →
      motive rest → motive (run ++ rest))
    (foreign : ∀ c rest, isForeign c = true → motive (c :: rest)) (text : List Char) :
    motive text := by
  induction hl : text.length using Nat.strongRecOn generalizing text with
  | ind length ih =>
    subst hl
    cases text with
    | nil => exact nil
    | cons c rest =>
      have hrest : motive rest := ih _ (Nat.lt_succ_self _) rest rfl
      by_cases hdigit : isAsciiDigit c = true
      · have hd : ∀ d ∈ c :: rest.takeWhile isAsciiDigit, isAsciiDigit d = true :=
          List.forall_mem_cons.mpr ⟨hdigit, fun d => List.mem_takeWhile_imp⟩
        have hr : NoDigitFirst (rest.dropWhile isAsciiDigit) := fun d => of_mem_head?_dropWhile
        have hs : (rest.dropWhile isAsciiDigit).length < (c :: rest).length :=
          Nat.lt_succ_of_le (List.length_dropWhile_le isAsciiDigit rest)
        have hm := digits _ _ (List.cons_ne_nil _ _) hd hr (ih _ hs _ rfl)
        rw [List.cons_append, List.takeWhile_append_dropWhile] at hm
        exact hm
      · by_cases hsign : isOperatorSign c = true
        · exact sign c rest hsign hrest
        · by_cases hblank : isBlank c = true
          · exact blank c rest hblank hrest
          · refine foreign c rest ?_
            rw [isForeign, Bool.eq_false_iff.mpr hdigit, Bool.eq_false_iff.mpr hsign,
              Bool.eq_false_iff.mpr hblank]
            rfl

end PostfixArithmetic
