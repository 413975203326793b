import PostfixArithmetic.Proofs.Lexer.Balance
import PostfixArithmetic.Proofs.Lexer.Tiling

/-!
# Tables made of standard rules

A lexer knows the characters of the rules that it was given. With any list of standard
rules, in any order and with repetitions, a text is split as the standard table does it
if each of its characters belongs to the class of a listed rule; otherwise it is rejected
at the first character that does not. The reason is that the classes of the standard
rules are disjoint: at each character one rule at most can win, and what it takes are
characters of its own class.
-/

namespace PostfixArithmetic

/-- The class of characters that a pattern is about: those in its matches. -/
def Pattern.covers (pattern : Pattern) (c : Char) : Prop :=
  ∃ input piece, pattern.piece? input = some piece ∧ c ∈ piece

/-- A character belongs to the class of some rule of a table. -/
def Listed (rules : List Rule) (c : Char) : Prop :=
  ∃ rule ∈ rules, rule.pattern.covers c

/-- A character at an index of a text belongs to no class of a table. -/
def UnlistedAt (rules : List Rule) (text : List Char) (index : Nat) : Prop :=
  ∃ c, text[index]? = some c ∧ ¬ Listed rules c

/-- What a pattern takes are characters of its class. -/
theorem Pattern.covers_of_mem_piece {pattern : Pattern} {input piece : List Char}
    (h : pattern.piece? input = some piece) : ∀ c ∈ piece, pattern.covers c :=
  fun _ hc => ⟨input, piece, h, hc⟩

/-- The class of a literal has its characters. -/
theorem Pattern.covers_literal_iff {characters : List Char} {c : Char} :
    (literal characters).covers c ↔ c ∈ characters := by
  constructor
  · rintro ⟨input, piece, hp, hc⟩
    cases (Pattern.piece?_eq_some_iff.mp hp).2 with
    | literal _ rest => exact hc
  · intro hc
    exact ⟨_, _, Pattern.piece?_literal_self (List.ne_nil_of_mem hc), hc⟩

/-- The class of a run has its members. -/
theorem Pattern.covers_run_iff {members : Char → Bool} {least : Nat} {c : Char} :
    (run members least).covers c ↔ members c = true := by
  constructor
  · rintro ⟨input, piece, hp, hc⟩
    cases (Pattern.piece?_eq_some_iff.mp hp).2 with
    | run all stop enough => exact all c hc
  · intro hc
    exact ⟨_, _, Pattern.piece?_replicate hc least, List.mem_cons_self⟩

/-- A rule that wins at a character has it in its class. -/
theorem covers_of_winner {rules : List Rule} {c : Char} {rest piece : List Char} {rule : Rule}
    (h : winner? rules (c :: rest) = some (piece, rule)) : rule.pattern.covers c := by
  have win := winner?_eq_some_iff.mp h
  obtain ⟨left, hr⟩ := win.exists_rest
  obtain ⟨d, others, rfl⟩ := List.exists_cons_of_ne_nil win.1
  cases hr
  exact Pattern.covers_of_mem_piece (mem_and_piece_of_winner h).2 c List.mem_cons_self

/-- At a character of its class, a standard rule wins in the standard table. -/
theorem exists_winner_standard {rule : Rule} (h : rule ∈ Rule.standard) {c : Char}
    (hc : rule.pattern.covers c) (rest : List Char) :
    ∃ piece, winner? Rule.standard (c :: rest) = some (piece, rule) := by
  have hsign : ∀ a, isOperatorSign a = true →
      (Rule.operator (.literal [a])).pattern.covers c →
        ∃ piece, winner? Rule.standard (c :: rest) =
          some (piece, Rule.operator (.literal [a])) := by
    intro a ha hca
    have he := List.mem_singleton.mp (Pattern.covers_literal_iff.mp hca)
    subst he
    exact ⟨[c], winner?_sign ha rest⟩
  simp only [Rule.standard, List.mem_cons, List.not_mem_nil, or_false] at h
  rcases h with rfl | rfl | rfl | rfl | rfl | rfl
  · exact hsign '+' rfl hc
  · exact hsign '-' rfl hc
  · exact hsign '*' rfl hc
  · exact hsign '/' rfl hc
  · have hd : ∀ d ∈ c :: rest.takeWhile isAsciiDigit, isAsciiDigit d = true :=
      List.forall_mem_cons.mpr ⟨Pattern.covers_run_iff.mp hc, fun d => List.mem_takeWhile_imp⟩
    have hr : NoDigitFirst (rest.dropWhile isAsciiDigit) := fun d => of_mem_head?_dropWhile
    have hw := winner?_digits (List.cons_ne_nil _ _) hd hr
    rw [List.cons_append, List.takeWhile_append_dropWhile] at hw
    exact ⟨_, hw⟩
  · have hb : ∀ d ∈ c :: rest.takeWhile isBlank, isBlank d = true :=
      List.forall_mem_cons.mpr ⟨Pattern.covers_run_iff.mp hc, fun d => List.mem_takeWhile_imp⟩
    have hr : ∀ d ∈ (rest.dropWhile isBlank).head?, isBlank d = false :=
      fun d => of_mem_head?_dropWhile
    have hw := winner?_blanks (List.cons_ne_nil _ _) hb hr
    rw [List.cons_append, List.takeWhile_append_dropWhile] at hw
    exact ⟨_, hw⟩

/-- The classes of the standard rules are disjoint. -/
theorem eq_of_covers {a b : Rule} (ha : a ∈ Rule.standard) (hb : b ∈ Rule.standard) {c : Char}
    (hac : a.pattern.covers c) (hbc : b.pattern.covers c) : a = b := by
  obtain ⟨piece, hp⟩ := exists_winner_standard ha hac []
  obtain ⟨found, hf⟩ := exists_winner_standard hb hbc []
  rw [hp] at hf
  cases hf
  rfl

/-- The standard table knows digits, the signs of operators and blanks. -/
theorem listed_standard_iff {c : Char} :
    Listed Rule.standard c ↔
      isAsciiDigit c = true ∨ isOperatorSign c = true ∨ isBlank c = true := by
  constructor
  · rintro ⟨rule, hr, hc⟩
    obtain ⟨piece, hw⟩ := exists_winner_standard hr hc []
    by_contra hn
    rw [not_or, not_or] at hn
    have hf : isForeign c = true := by simp [isForeign, hn]
    rw [winner?_foreign hf] at hw
    cases hw
  · rintro (hd | hs | hb)
    · exact ⟨Rule.digits, by simp [Rule.standard], Pattern.covers_run_iff.mpr hd⟩
    · have hw := winner?_sign hs []
      exact ⟨_, (mem_and_piece_of_winner hw).1, covers_of_winner hw⟩
    · exact ⟨Rule.space, by simp [Rule.standard], Pattern.covers_run_iff.mpr hb⟩

/-- A standard rule accepts what it takes, as one token at most. -/
theorem exists_built {rule : Rule} (h : rule ∈ Rule.standard) {input piece : List Char}
    (hp : rule.pattern.piece? input = some piece) :
    ∃ tokens, rule.build (String.ofList piece) = some tokens ∧ tokens.length ≤ 1 := by
  simp only [Rule.standard, List.mem_cons, List.not_mem_nil, or_false] at h
  rcases h with rfl | rfl | rfl | rfl | rfl | rfl
  · exact ⟨_, rfl, Nat.le_refl 1⟩
  · exact ⟨_, rfl, Nat.le_refl 1⟩
  · exact ⟨_, rfl, Nat.le_refl 1⟩
  · exact ⟨_, rfl, Nat.le_refl 1⟩
  · have hne := (Pattern.nonempty_prefix_of_piece hp).1
    have hd : ∀ c ∈ piece, isAsciiDigit c = true := fun c hc =>
      Pattern.covers_run_iff.mp (Pattern.covers_of_mem_piece hp c hc)
    refine ⟨[.operand (Numeral.ofDigits piece)], ?_, Nat.le_refl 1⟩
    simp only [Rule.digits, Rule.operand, Token.operand?, Numeral.read?_digits hne hd,
      Option.map_some]
  · exact ⟨_, rfl, Nat.zero_le 1⟩

section

variable {rules : List Rule}

/-- At a listed character a table of standard rules has the winner of the standard table. -/
theorem winner?_of_listed (h : rules ⊆ Rule.standard) {c : Char} (hc : Listed rules c)
    (rest : List Char) : winner? rules (c :: rest) = winner? Rule.standard (c :: rest) := by
  obtain ⟨rule, hr, hcover⟩ := hc
  obtain ⟨piece, hw⟩ := exists_winner_standard (h hr) hcover rest
  have hp := (mem_and_piece_of_winner hw).2
  rw [hw]
  cases hrules : winner? rules (c :: rest) with
  | none =>
    have hnone := winner?_eq_none_iff.mp hrules rule hr
    rw [hp] at hnone
    cases hnone
  | some found =>
    obtain ⟨taken, other⟩ := found
    obtain ⟨ho, ht⟩ := mem_and_piece_of_winner hrules
    have he : other = rule := eq_of_covers (h ho) (h hr) (covers_of_winner hrules) hcover
    rw [he, hp] at ht
    rw [he, Option.some.inj ht]

/-- A rule that wins in a table of standard rules wins in the standard table. -/
theorem winner?_standard_of_winner (h : rules ⊆ Rule.standard) {input piece : List Char}
    {rule : Rule} (hw : winner? rules input = some (piece, rule)) :
    winner? Rule.standard input = some (piece, rule) := by
  have win := winner?_eq_some_iff.mp hw
  obtain ⟨rest, rfl⟩ := win.exists_rest
  obtain ⟨c, others, rfl⟩ := List.exists_cons_of_ne_nil win.1
  have hc : Listed rules c := ⟨rule, (mem_and_piece_of_winner hw).1, covers_of_winner hw⟩
  exact (winner?_of_listed h hc _).symm.trans hw

/-- Every character of a text is listed exactly if none is not. -/
theorem forall_not_unlistedAt_iff {text : List Char} :
    (∀ j, ¬ UnlistedAt rules text j) ↔ ∀ c ∈ text, Listed rules c := by
  constructor
  · intro h c hc
    obtain ⟨j, hj⟩ := List.getElem?_of_mem hc
    by_contra hn
    exact h j ⟨c, hj, hn⟩
  · rintro h j ⟨c, hc, hn⟩
    exact hn (h c (List.mem_of_getElem? hc))

/-- A table of standard rules splits a text as the standard table does it if all of its
characters are listed, and rejects it at the first that is not otherwise. -/
theorem scan_of_subset (h : rules ⊆ Rule.standard) (text : List Char) :
    (∀ j, ¬ UnlistedAt rules text j) ∧
        (∀ position, ∃ tokens, (scan rules position text).outcome = .ok tokens ∧
          (scan Rule.standard position text).outcome = .ok tokens) ∨
      ∃ i c, IsLeast {j | UnlistedAt rules text j} i ∧ text[i]? = some c ∧
        ∀ position : Nat, (scan rules position text).outcome =
          .error (.diagnostic (.unrecognized ((position + i : Nat) : Int)
            (String.singleton c))) := by
  induction text using winner_induction rules with
  | nil =>
    refine Or.inl ⟨?_, fun position => ⟨[], by rw [scan], by rw [scan]⟩⟩
    rintro j ⟨c, hc, -⟩
    cases hc
  | none c rest hw =>
    have hn : ¬ Listed rules c := by
      intro hl
      obtain ⟨rule, hr, hc⟩ := id hl
      obtain ⟨piece, hs⟩ := exists_winner_standard (h hr) hc rest
      rw [winner?_of_listed h hl, hs] at hw
      cases hw
    refine Or.inr ⟨0, c, ⟨⟨c, rfl, hn⟩, fun j _ => Nat.zero_le j⟩, rfl, fun position => ?_⟩
    rw [scan_of_no_winner hw]
    rfl
  | some piece rest rule hw ih =>
    obtain ⟨hr, hp⟩ := mem_and_piece_of_winner hw
    have hcover := Pattern.covers_of_mem_piece hp
    have hlisted : ∀ c ∈ piece, ¬ ¬ Listed rules c := fun c hc hn => hn ⟨rule, hr, hcover c hc⟩
    have hshift : Shifted (UnlistedAt rules (piece ++ rest)) (UnlistedAt rules rest)
        piece.length := shifted_of_forall_not hlisted
    have hstandard := winner?_standard_of_winner h hw
    obtain ⟨built, hb, -⟩ := exists_built (h hr) hp
    rcases ih with ⟨hn, ho⟩ | ⟨i, c, hi, hc, ho⟩
    · refine Or.inl ⟨hshift.forall_not_iff.mpr hn, fun position => ?_⟩
      obtain ⟨tokens, hrules, hall⟩ := ho (position + piece.length)
      refine ⟨built ++ tokens, ?_, ?_⟩
      · rw [scan_piece hw hb, Scan.prepend, hrules]
        rfl
      · rw [scan_piece hstandard hb, Scan.prepend, hall]
        rfl
    · refine Or.inr ⟨piece.length + i, c, hshift.isLeast hi, ?_, fun position => ?_⟩
      · rw [getElem?_behind, hc]
      · rw [scan_piece hw hb, Scan.prepend, ho, Nat.add_assoc]
        rfl

/-- Tables of standard rules with the same rules in them split every text alike. -/
theorem tokenizeWith_of_same_rules (h : rules ⊆ Rule.standard) {other : List Rule}
    (hs : ∀ rule, rule ∈ other ↔ rule ∈ rules) (text : String) :
    tokenizeWith other text = tokenizeWith rules text := by
  have ho : other ⊆ Rule.standard := fun rule hr => h ((hs rule).mp hr)
  have hl : Listed other = Listed rules := by
    funext c
    simp only [Listed, hs]
  have hu : UnlistedAt other = UnlistedAt rules := by
    funext input j
    simp only [UnlistedAt, hl]
  have hother := scan_of_subset ho text.toList
  rw [hu] at hother
  rcases scan_of_subset h text.toList with ⟨hn, hok⟩ | ⟨i, c, hi, hc, herror⟩
  · rcases hother with ⟨-, hook⟩ | ⟨j, d, hj, -, -⟩
    · obtain ⟨tokens, hrules, hall⟩ := hok 0
      obtain ⟨found, hfound, hsame⟩ := hook 0
      rw [hall] at hsame
      cases hsame
      exact hfound.trans hrules.symm
    · exact absurd hj.1 (hn j)
  · rcases hother with ⟨hn, -⟩ | ⟨j, d, hj, hd, hoerror⟩
    · exact absurd hi.1 (hn i)
    · obtain rfl := hj.unique hi
      rw [hd] at hc
      cases hc
      exact (hoerror 0).trans (herror 0).symm

/-- A table made of standard rules, in any order and with repetitions, knows exactly the
characters of the rules in it. A text of such characters is split as the standard table
splits it; any other is rejected at the first character that is not listed. It does not
matter in which order and how often the rules are listed, and what the standard table
knows are digits, the signs of the operators and blanks. -/
theorem tokenizeWith_of_subset (h : rules ⊆ Rule.standard) (text : String) :
    ((∃ tokens, tokenizeWith rules text = .ok tokens) ↔ ∀ c ∈ text.toList, Listed rules c) ∧
    ((∀ c ∈ text.toList, Listed rules c) → tokenizeWith rules text = tokenize text) ∧
    ((¬ ∀ c ∈ text.toList, Listed rules c) →
      ∃ i c, IsLeast {j | UnlistedAt rules text.toList j} i ∧ text.toList[i]? = some c ∧
        tokenizeWith rules text =
          .error (.diagnostic (.unrecognized i (String.singleton c)))) ∧
    (∀ other : List Rule, (∀ rule, rule ∈ other ↔ rule ∈ rules) →
      tokenizeWith other text = tokenizeWith rules text) ∧
    ∀ c, Listed Rule.standard c ↔
      isAsciiDigit c = true ∨ isOperatorSign c = true ∨ isBlank c = true := by
  have hsame : ∀ other : List Rule, (∀ rule, rule ∈ other ↔ rule ∈ rules) →
      tokenizeWith other text = tokenizeWith rules text :=
    fun other hs => tokenizeWith_of_same_rules h hs text
  rcases scan_of_subset h text.toList with ⟨hn, ho⟩ | ⟨i, c, hi, hc, ho⟩
  · have hall := forall_not_unlistedAt_iff.mp hn
    obtain ⟨tokens, hrules, hstandard⟩ := ho 0
    exact ⟨iff_of_true ⟨tokens, hrules⟩ hall, fun _ => hrules.trans hstandard.symm,
      fun hc => absurd hall hc, hsame, fun c => listed_standard_iff⟩
  · have hnot : ¬ ∀ c ∈ text.toList, Listed rules c := fun hall =>
      forall_not_unlistedAt_iff.mpr hall i hi.1
    have herror : tokenizeWith rules text =
        .error (.diagnostic (.unrecognized i (String.singleton c))) := by
      have hz := ho 0
      rw [Nat.zero_add] at hz
      exact hz
    refine ⟨iff_of_false ?_ hnot, fun hall => absurd hall hnot,
      fun _ => ⟨i, c, hi, hc, herror⟩, hsame, fun c => listed_standard_iff⟩
    rintro ⟨tokens, hok⟩
    rw [herror] at hok
    cases hok

/-- Without the rule for minus, and with that for numerals listed twice, a difference is
rejected at its sign. -/
theorem tokenizeWith_without_minus :
    tokenizeWith [Rule.digits, Rule.plus, Rule.digits] "12+3-4" =
      .error (.diagnostic (.unrecognized 4 "-")) := by
  have h : [Rule.digits, Rule.plus, Rule.digits] ⊆ Rule.standard := by simp [Rule.standard]
  have hminus : ¬ Listed [Rule.digits, Rule.plus, Rule.digits] '-' := by
    simp only [Listed, List.mem_cons, List.not_mem_nil, or_false]
    rintro ⟨rule, rfl | rfl | rfl, hc⟩
    · cases Pattern.covers_run_iff.mp hc
    · exact absurd (Pattern.covers_literal_iff.mp hc) (by decide)
    · cases Pattern.covers_run_iff.mp hc
  have hfour : UnlistedAt [Rule.digits, Rule.plus, Rule.digits] "12+3-4".toList 4 :=
    ⟨'-', rfl, hminus⟩
  have hdigit : ∀ c, isAsciiDigit c = true → Listed [Rule.digits, Rule.plus, Rule.digits] c :=
    fun c hc => ⟨Rule.digits, List.mem_cons_self, Pattern.covers_run_iff.mpr hc⟩
  have hsum : ∀ c ∈ "12+3-4".toList.take 4, Listed [Rule.digits, Rule.plus, Rule.digits] c := by
    intro c hc
    have hc : c ∈ ['1', '2', '+', '3'] := hc
    simp only [List.mem_cons, List.not_mem_nil, or_false] at hc
    rcases hc with rfl | rfl | rfl | rfl
    · exact hdigit '1' rfl
    · exact hdigit '2' rfl
    · exact ⟨Rule.plus, by simp, Pattern.covers_literal_iff.mpr List.mem_cons_self⟩
    · exact hdigit '3' rfl
  have hnot : ¬ ∀ c ∈ "12+3-4".toList, Listed [Rule.digits, Rule.plus, Rule.digits] c :=
    fun hall => forall_not_unlistedAt_iff.mpr hall 4 hfour
  obtain ⟨i, c, hi, hc, he⟩ := (tokenizeWith_of_subset h "12+3-4").2.2.1 hnot
  obtain ⟨d, hd, hu⟩ := hi.1
  have hle : i ≤ 4 := hi.2 hfour
  have hi : i = 4 := by
    by_contra hne
    have ht : ("12+3-4".toList.take 4)[i]? = some d := by
      rw [List.getElem?_take_of_lt (by omega), hd]
    exact hu (hsum d (List.mem_of_getElem? ht))
  subst hi
  cases hc
  exact he

end

end PostfixArithmetic
