import PostfixArithmetic.Proofs.Lexer.Rendering
import PostfixArithmetic.Proofs.Lexer.Selection

/-!
# Putting texts together

The tokens of two texts put together are those of the first and then those of the second,
unless a run of digits goes on across the boundary. A run of blanks may go on, since it has
no tokens. A foreign character is where it was: the first one of the first text is the
first of both, and if there is none the first one of the second text only moves along.
-/

namespace PostfixArithmetic

/-- A run of digits at the end of one text goes on at the start of another. -/
def JoinsDigits (a b : List Char) : Prop :=
  (∃ c ∈ a.getLast?, isAsciiDigit c = true) ∧ ∃ d ∈ b.head?, isAsciiDigit d = true

/-- What is in front of the end of a text does not matter for what goes on. -/
theorem JoinsDigits.append {rest b : List Char} (h : JoinsDigits rest b) (piece : List Char) :
    JoinsDigits (piece ++ rest) b := by
  obtain ⟨⟨c, hc, hd⟩, hb⟩ := h
  refine ⟨⟨c, ?_, hd⟩, hb⟩
  rw [Option.mem_def] at hc ⊢
  rw [List.getLast?_append, hc, Option.some_or]

/-- A run of digits that ends within a text or at a boundary where it does not go on is
followed by no digit. -/
theorem noDigitFirst_append {run rest b : List Char} (hne : run ≠ [])
    (hd : ∀ c ∈ run, isAsciiDigit c = true) (hr : NoDigitFirst rest)
    (hj : ¬ JoinsDigits (run ++ rest) b) : NoDigitFirst (rest ++ b) := by
  cases rest with
  | nil =>
    intro d hm
    have hlast : (run ++ []).getLast? = some (run.getLast hne) := by
      rw [List.append_nil, List.getLast?_eq_some_getLast hne]
    refine Bool.eq_false_iff.mpr fun hdigit => hj ⟨⟨_, hlast, ?_⟩, d, hm, hdigit⟩
    exact hd _ (List.getLast_mem hne)
  | cons c rest => exact hr

/-- Tokens put in front one after another are put in front together. -/
theorem Scan.prepend_prepend (earlier tokens : List Token) (later : Scan) :
    (later.prepend tokens).prepend earlier = later.prepend (earlier ++ tokens) := by
  obtain ⟨outcome, position⟩ := later
  cases outcome with
  | error failure => rfl
  | ok others =>
    exact congrArg (Scan.mk · position) (congrArg Except.ok (List.append_assoc ..).symm)

/-- The tokens of an input do not depend on where it starts. -/
theorem outcome_scan_of_position {rules : List Rule} (input : List Char) :
    ∀ {p : Nat} {tokens : List Token}, (scan rules p input).outcome = .ok tokens →
      ∀ q, (scan rules q input).outcome = .ok tokens := by
  induction input using winner_induction rules with
  | nil =>
    intro p tokens h q
    rw [scan] at h ⊢
    exact h
  | none c rest hw =>
    intro p tokens h q
    rw [scan_of_no_winner hw] at h
    cases h
  | some piece rest rule hw ih =>
    intro p tokens h q
    cases hb : rule.build (String.ofList piece) with
    | none =>
      obtain ⟨c, others, rfl⟩ := List.exists_cons_of_ne_nil (winner?_eq_some_iff.mp hw).1
      rw [List.cons_append] at h hw
      rw [scan_of_rejected hw hb] at h
      cases h
    | some built =>
      rw [scan_piece hw hb] at h ⊢
      obtain ⟨others, ho, rfl⟩ := Scan.exists_of_prepend h
      rw [Scan.prepend, ih ho]
      rfl

/-- Behind a text with tokens the scan goes on with the next text, if no run of digits
goes on across the boundary. -/
theorem scan_append (a : List Char) {b : List Char} :
    ∀ {position : Nat} {tokens : List Token},
      (scan Rule.standard position a).outcome = .ok tokens → ¬ JoinsDigits a b →
        scan Rule.standard position (a ++ b) =
          (scan Rule.standard (position + a.length) b).prepend tokens := by
  induction a using piece_induction with
  | nil =>
    intro position tokens h hj
    rw [scan] at h
    cases h
    rw [Scan.prepend_nil]
    rfl
  | blank c rest hc ih =>
    intro position tokens h hj
    rw [scan_blank hc] at h
    rw [List.cons_append, scan_blank hc, ih h fun hr => hj (hr.append [c]), List.length_cons,
      Nat.add_right_comm, Nat.add_assoc]
  | sign c rest hc ih =>
    intro position tokens h hj
    rw [scan_sign hc] at h
    obtain ⟨others, ho, rfl⟩ := Scan.exists_of_prepend h
    rw [List.cons_append, scan_sign hc, ih ho fun hr => hj (hr.append [c]), Scan.prepend_prepend,
      List.length_cons, Nat.add_right_comm, Nat.add_assoc]
  | digits run rest hne hd hr ih =>
    intro position tokens h hj
    rw [scan_digits hne hd hr] at h
    obtain ⟨others, ho, rfl⟩ := Scan.exists_of_prepend h
    rw [List.append_assoc, scan_digits hne hd (noDigitFirst_append hne hd hr hj),
      ih ho fun hr => hj (hr.append run), Scan.prepend_prepend, List.length_append, Nat.add_assoc]
  | foreign c rest hc =>
    intro position tokens h hj
    rw [scan_foreign hc] at h
    cases h

/-- A text has tokens exactly if no character of it is foreign to the standard rules, and
otherwise the first such character is the failure. -/
theorem tokenize_cases (text : String) :
    (∀ j, ¬ UnlistedAt Rule.standard text.toList j) ∧ (∃ tokens, tokenize text = .ok tokens) ∨
      ∃ (i : Nat) (c : Char), IsLeast {j | UnlistedAt Rule.standard text.toList j} i ∧
        text.toList[i]? = some c ∧
        tokenize text = .error (.diagnostic (.unrecognized i (String.singleton c))) := by
  rcases scan_of_subset (List.Subset.refl Rule.standard) text.toList with
    ⟨hn, ho⟩ | ⟨i, c, hi, hc, he⟩
  · obtain ⟨tokens, ht, -⟩ := ho 0
    exact Or.inl ⟨hn, tokens, ht⟩
  · have hz := he 0
    rw [Nat.zero_add] at hz
    exact Or.inr ⟨i, c, hi, hc, hz⟩

/-- The first foreign character of a text decides how it is rejected. -/
theorem tokenize_of_isLeast {text : String} {i : Nat} {c : Char}
    (hi : IsLeast {j | UnlistedAt Rule.standard text.toList j} i)
    (hc : text.toList[i]? = some c) :
    tokenize text = .error (.diagnostic (.unrecognized i (String.singleton c))) := by
  rcases tokenize_cases text with ⟨hn, -⟩ | ⟨j, d, hj, hd, ht⟩
  · exact absurd hi.1 (hn i)
  · cases hi.unique hj
    cases hc.symm.trans hd
    exact ht

/-- A text that is rejected has a first foreign character, which is the failure. -/
theorem exists_isLeast_of_error {text : String} {failure : Failure}
    (h : tokenize text = .error failure) :
    ∃ (i : Nat) (c : Char), IsLeast {j | UnlistedAt Rule.standard text.toList j} i ∧
      text.toList[i]? = some c ∧
      failure = .diagnostic (.unrecognized i (String.singleton c)) := by
  rcases tokenize_cases text with ⟨-, tokens, ht⟩ | ⟨i, c, hi, hc, ht⟩
  · cases h.symm.trans ht
  · cases h.symm.trans ht
    exact ⟨i, c, hi, hc, rfl⟩

/-- A text with tokens has no foreign character. -/
theorem not_unlistedAt_of_ok {text : String} {tokens : List Token}
    (h : tokenize text = .ok tokens) : ∀ j, ¬ UnlistedAt Rule.standard text.toList j := by
  rcases tokenize_cases text with ⟨hn, -⟩ | ⟨i, c, -, -, ht⟩
  · exact hn
  · cases h.symm.trans ht

/-- Behind a text with tokens, the first foreign character moves along. -/
theorem tokenize_append_of_error {a b : String} {earlier : List Token} {failure : Failure}
    (ha : tokenize a = .ok earlier) (hb : tokenize b = .error failure) :
    ∃ (p : Nat) (c : Char), b.toList[p]? = some c ∧
      failure = .diagnostic (.unrecognized p (String.singleton c)) ∧
      tokenize (a ++ b) =
        .error (.diagnostic (.unrecognized (a.length + p : Nat) (String.singleton c))) := by
  obtain ⟨p, c, hp, hc, hf⟩ := exists_isLeast_of_error hb
  have hnone : ∀ d ∈ a.toList, ¬ ¬ Listed Rule.standard d := by
    intro d hd hn
    obtain ⟨j, hj⟩ := List.getElem?_of_mem hd
    exact not_unlistedAt_of_ok ha j ⟨d, hj, hn⟩
  have hshift : Shifted (UnlistedAt Rule.standard (a.toList ++ b.toList))
      (UnlistedAt Rule.standard b.toList) a.toList.length := shifted_of_forall_not hnone
  refine ⟨p, c, hc, hf, ?_⟩
  rw [← String.length_toList]
  refine tokenize_of_isLeast ?_ ?_
  · rw [String.toList_append]
    exact hshift.isLeast hp
  · rw [String.toList_append, getElem?_behind, hc]

/-- The first foreign character of a text is the first of every longer one. -/
theorem tokenize_append_of_rejected {a : String} {failure : Failure}
    (h : tokenize a = .error failure) (b : String) : tokenize (a ++ b) = .error failure := by
  obtain ⟨i, c, hi, hc, rfl⟩ := exists_isLeast_of_error h
  have hl := (List.getElem?_eq_some_iff.mp hc).1
  have hsame : ∀ j, j ≤ i → (a ++ b).toList[j]? = a.toList[j]? := by
    intro j hj
    rw [String.toList_append, List.getElem?_append_left (by omega)]
  refine tokenize_of_isLeast ⟨?_, fun j hj => ?_⟩ ?_
  · obtain ⟨d, hd, hn⟩ := hi.1
    exact ⟨d, (hsame i (Nat.le_refl i)).trans hd, hn⟩
  · by_contra hlt
    obtain ⟨d, hd, hn⟩ := hj
    rw [hsame j (by omega)] at hd
    exact hlt (hi.2 ⟨d, hd, hn⟩)
  · rw [hsame i (Nat.le_refl i), hc]

/-- Splitting two texts that are put together is splitting the one and then the other. The
tokens of the first come before those of the second, unless a run of digits goes on across
the boundary. In any case a failure in the second text is found at the same character,
moved along by the length of the first, and a failure in the first text is that of both,
whatever the second is. -/
theorem tokenize_append (a b : String) :
    (∀ earlier, tokenize a = .ok earlier →
      (¬ JoinsDigits a.toList b.toList → ∀ later, tokenize b = .ok later →
        tokenize (a ++ b) = .ok (earlier ++ later)) ∧
      ∀ failure, tokenize b = .error failure → ∃ (p : Nat) (c : Char), b.toList[p]? = some c ∧
        failure = .diagnostic (.unrecognized p (String.singleton c)) ∧
        tokenize (a ++ b) =
          .error (.diagnostic (.unrecognized (a.length + p : Nat) (String.singleton c)))) ∧
    ∀ failure, tokenize a = .error failure →
      (∃ (p : Nat) (c : Char), a.toList[p]? = some c ∧
        failure = .diagnostic (.unrecognized p (String.singleton c))) ∧
      tokenize (a ++ b) = .error failure := by
  refine ⟨fun earlier ha => ⟨fun hj later hb => ?_, fun failure hb => ?_⟩, fun failure ha => ?_⟩
  · rw [tokenize, tokenizeWith, String.toList_append, scan_append a.toList ha hj, Scan.prepend,
      outcome_scan_of_position b.toList hb]
    rfl
  · exact tokenize_append_of_error ha hb
  · obtain ⟨p, c, -, hc, hf⟩ := exists_isLeast_of_error ha
    exact ⟨⟨p, c, hc, hf⟩, tokenize_append_of_rejected ha b⟩

/-- Blanks on both sides of the boundary are one run, and a foreign character behind digits
that go on is found where it stands. -/
theorem tokenize_append_blanks_and_digits :
    tokenize ("3 4 " ++ "\u2003-") = .ok [.operand 3, .operand 4, .operator "-"] ∧
      tokenize ("12" ++ "34 x") = .error (.diagnostic (.unrecognized 5 "x")) := by
  have ha : tokenize "3 4 " = .ok [.operand 3, .operand 4] := by decide +kernel
  have hb : tokenize "\u2003-" = .ok [.operator "-"] := by decide +kernel
  have hj : ¬ JoinsDigits "3 4 ".toList "\u2003-".toList := by
    rintro ⟨⟨c, hc, hd⟩, -⟩
    cases hc
    cases hd
  have hdigits : tokenize "12" = .ok [.operand 12] := by decide +kernel
  have hforeign : tokenize "34 x" = .error (.diagnostic (.unrecognized 3 "x")) := by decide +kernel
  refine ⟨((tokenize_append _ _).1 _ ha).1 hj _ hb, ?_⟩
  obtain ⟨p, c, -, hf, ht⟩ := ((tokenize_append "12" _).1 _ hdigits).2 _ hforeign
  obtain ⟨hp, hc⟩ := Diagnostic.unrecognized.inj (Failure.diagnostic.inj hf)
  have hp : p = 3 := by omega
  rw [hp, ← hc] at ht
  exact ht

end PostfixArithmetic
