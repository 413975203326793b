import PostfixArithmetic.Proofs.Calculator.Answer
import PostfixArithmetic.Proofs.Number.ReadBack

/-!
# Decoding responses

The line of text for a response tells everything that the response says. A mistake has a
mark in front, which no number starts with, and values have a word behind them, which no
message of a mistake ends with. Between its spaces the line for some values shows numbers
that are read back one by one, so neither their order nor their signs get lost.
-/

namespace PostfixArithmetic

/-- The pieces of a text between its spaces; the empty text has none. -/
def pieces (text : String) : List String :=
  if text = "" then [] else (text.toList.splitOn ' ').map String.ofList

/-- The numbers that the pieces of a text denote, or nothing if one is no numeral. -/
def readAll? (text : String) : Option (List Float) :=
  (pieces text).mapM Numeral.read?

/-- Joined texts start with the first of them. -/
theorem exists_intercalate_cons (between text : String) (texts : List String) :
    ∃ rest, between.intercalate (text :: texts) = text ++ rest := by
  cases texts with
  | nil => exact ⟨"", by rw [String.intercalate_singleton, String.append_empty]⟩
  | cons next texts =>
    exact ⟨between ++ between.intercalate (next :: texts), by
      rw [String.intercalate_cons_cons, String.append_assoc]⟩

/-- Texts that are neither empty nor have spaces are the pieces of the text that they are
joined to with spaces. -/
theorem pieces_intercalate {texts : List String}
    (h : ∀ text ∈ texts, text ≠ "" ∧ ' ' ∉ text.toList) :
    pieces (" ".intercalate texts) = texts := by
  cases texts with
  | nil => rfl
  | cons text texts =>
    have hne : " ".intercalate (text :: texts) ≠ "" := by
      obtain ⟨rest, hrest⟩ := exists_intercalate_cons " " text texts
      rw [hrest, Ne, String.append_eq_empty_iff]
      exact fun hc => (h text List.mem_cons_self).1 hc.1
    have hspace : ∀ piece ∈ (text :: texts).map String.toList, ' ' ∉ piece := by
      intro piece hp
      obtain ⟨t, ht, rfl⟩ := List.mem_map.mp hp
      exact (h t ht).2
    have hsplit := List.splitOn_intercalate ' ' hspace (List.cons_ne_nil _ _)
    have hlist : " ".toList = [' '] := rfl
    have hback : String.ofList ∘ String.toList = id := funext fun t => String.ofList_toList
    rw [pieces, if_neg hne, String.toList_intercalate, hlist, hsplit, List.map_map, hback,
      List.map_id]

namespace Written

/-- A written number is not empty. -/
theorem number_ne_empty (x : Float) : number x ≠ "" := by
  have hnone : Numeral.read? "" = none := rfl
  intro hc
  have hread := read?_number x
  rw [hc, hnone] at hread
  cases hread

/-- It has no space. -/
theorem space_not_mem_number (x : Float) : ' ' ∉ (number x).toList := by
  rw [number, String.toList_ofList]
  exact fun hm => absurd (characters_subset x hm) (by decide)

/-- Numbers that are joined with spaces are all read back. -/
theorem readAll?_intercalate (values : List Float) :
    readAll? (" ".intercalate (values.map number)) = some values := by
  have hpieces : pieces (" ".intercalate (values.map number)) = values.map number := by
    refine pieces_intercalate fun text ht => ?_
    obtain ⟨x, -, rfl⟩ := List.mem_map.mp ht
    exact ⟨number_ne_empty x, space_not_mem_number x⟩
  have hread : Numeral.read? ∘ number = pure := funext read?_number
  rw [readAll?, hpieces, List.mapM_map, hread, List.mapM_pure, List.map_id']
  rfl

/-- Both zeros, a not-a-number and an infinity are shown and read back, also no value. -/
example : readAll? "0.0 -0.0 nan -inf" = some [0.0, -0.0, 0.0 / 0.0, -1.0 / 0.0] ∧
    readAll? "" = some [] ∧ (0.0 : Float) ≠ -0.0 := by
  decide +kernel

end Written

/-- The last character of a text is a digit or the sign of an operator. -/
def EndsInSymbol (text : String) : Prop :=
  ∃ c ∈ text.toList.getLast?, isAsciiDigit c = true ∨ isOperatorSign c = true

namespace EndsInSymbol

/-- What stands in front does not matter. -/
theorem append {text : String} (h : EndsInSymbol text) (front : String) :
    EndsInSymbol (front ++ text) := by
  obtain ⟨c, hc, hsymbol⟩ := h
  refine ⟨c, ?_, hsymbol⟩
  rw [String.toList_append, List.getLast?_append, hc, Option.some_or]
  rfl

/-- A natural number ends in a digit. -/
theorem repr (n : Nat) : EndsInSymbol n.repr := by
  have hne : n.repr.toList ≠ [] := by
    rw [Nat.toList_repr]
    exact Nat.toDigits_ne_nil
  exact ⟨n.repr.toList.getLast hne, List.getLast?_eq_some_getLast hne,
    Or.inl (isAsciiDigit_of_mem_repr (List.getLast_mem hne))⟩

/-- Such a text does not end like the line for some values. -/
theorem not_suffix {text : String} (h : EndsInSymbol text) : ¬ " ok".toList <:+ text.toList := by
  rintro ⟨front, hf⟩
  obtain ⟨c, hc, hsymbol⟩ := h
  have hlast : " ok".toList.getLast? = some 'k' := rfl
  rw [← hf, List.getLast?_append, hlast, Option.some_or, Option.mem_some_iff] at hc
  subst hc
  exact absurd hsymbol (by decide)

end EndsInSymbol

/-- A natural number is written alike as an integer. -/
theorem toString_natCast (n : Nat) : toString (n : Int) = n.repr := by
  rw [Int.toString_eq_repr, Int.repr_eq_if, if_pos (Int.natCast_nonneg n), Int.toNat_natCast]

/-- The message of a mistake ends with a position, a number or an operator. -/
theorem Diagnostic.Arises.endsInSymbol {cause : Diagnostic} (h : cause.Arises) :
    EndsInSymbol cause.message := by
  cases h with
  | unrecognized i c =>
    have hposition := EndsInSymbol.repr i
    rw [← toString_natCast] at hposition
    exact hposition.append _
  | underflow operation =>
    have hsymbol : EndsInSymbol operation.symbol := by
      cases operation with
      | add => exact ⟨'+', rfl, Or.inr rfl⟩
      | sub => exact ⟨'-', rfl, Or.inr rfl⟩
      | mul => exact ⟨'*', rfl, Or.inr rfl⟩
      | div => exact ⟨'/', rfl, Or.inr rfl⟩
    exact hsymbol.append _
  | unbalanced stack => exact (EndsInSymbol.repr stack.length).append _

namespace Response

/-- The line for some values does not start like the line for a mistake. -/
theorem not_prefix_ok (values : List Float) :
    ¬ " ? ".toList <+: (Response.ok values).text.toList := by
  cases values with
  | nil => decide
  | cons x values =>
    obtain ⟨rest, hrest⟩ := exists_intercalate_cons " " (Written.number x)
      (values.map Written.number)
    obtain ⟨c, others, hc⟩ : ∃ c others, (Written.number x).toList = c :: others := by
      refine List.exists_cons_of_ne_nil fun hc => Written.number_ne_empty x ?_
      exact String.toList_eq_nil_iff.mp hc
    rw [Response.text, List.map_cons, hrest, String.toList_append, String.toList_append, hc]
    intro hp
    have hsame : ' ' = c := (List.cons_prefix_cons.mp hp).1
    have hm := Written.space_not_mem_number x
    rw [hc, hsame] at hm
    exact hm List.mem_cons_self

/-- The line for some values ends with a word, and the numbers in front of it are these
values. -/
theorem exists_text_ok (values : List Float) :
    ∃ shown, (Response.ok values).text = shown ++ " ok" ∧ readAll? shown = some values :=
  ⟨_, rfl, Written.readAll?_intercalate values⟩

/-- Lines for values are the same for the same values only. -/
theorem text_ok_inj {a b : List Float} (h : (Response.ok a).text = (Response.ok b).text) :
    a = b := by
  obtain ⟨shown, ha, hread⟩ := exists_text_ok a
  obtain ⟨otherShown, hb, hother⟩ := exists_text_ok b
  rw [ha, hb, String.append_left_inj] at h
  rw [h, hother] at hread
  exact (Option.some.inj hread).symm

/-- Lines for mistakes are the same for the same message only. -/
theorem text_mistake_inj {a b : Diagnostic}
    (h : (Response.mistake a).text = (Response.mistake b).text) : a.message = b.message :=
  (String.append_right_inj " ? ").mp h

/-- No line for a mistake ends like a line for values. -/
theorem not_suffix_mistake {cause : Diagnostic} (h : cause.Arises) :
    ¬ " ok".toList <:+ (Response.mistake cause).text.toList :=
  (h.endsInSymbol.append " ? ").not_suffix

/-- So no line can be both. -/
theorem text_ok_ne_text_mistake (values : List Float) {cause : Diagnostic} (h : cause.Arises) :
    (Response.ok values).text ≠ (Response.mistake cause).text := by
  intro hsame
  refine not_suffix_mistake h ?_
  rw [← hsame, Response.text, String.toList_append]
  exact List.suffix_append _ _

end Response

namespace Calculator

/-- Two runs end alike: both leave the same values, or both make mistakes that have the
same message. -/
inductive EndAlike : Except Failure State → Except Failure State → Prop where
  /-- The values are the same, in the same order. -/
  | values {a b : State} (h : a.values = b.values) : EndAlike (.ok a) (.ok b)
  /-- The messages are the same. -/
  | message {a b : Diagnostic} (h : a.message = b.message) :
    EndAlike (.error (.diagnostic a)) (.error (.diagnostic b))

/-- Behind every response there is a run: it shows the values of the final state, which
is remembered, or the mistake. -/
theorem response_cases {calculator : Calculator} {text : String} {response : Response}
    (h : (calculator.eval text).1 = .ok response) :
    (∃ final, calculator.run text = .ok final ∧
        (calculator.eval text).2.lastState = some final ∧ response = .ok final.values) ∨
      ∃ cause : Diagnostic, cause.Arises ∧
        calculator.run text = .error (.diagnostic cause) ∧ response = .mistake cause := by
  rcases run_ok_or_mistake calculator text with ⟨final, hr, -⟩ | ⟨cause, ha, hr⟩
  · rw [eval_of_run_ok hr] at h ⊢
    cases h
    exact Or.inl ⟨final, hr, rfl, rfl⟩
  · rw [eval_of_run_mistake hr] at h
    cases h
    exact Or.inr ⟨cause, ha, hr, rfl⟩

/-- Two responses have the same line exactly when the runs behind them end alike. -/
theorem text_eq_iff {calculator other : Calculator} {text otherText : String}
    {response answer : Response} (hr : (calculator.eval text).1 = .ok response)
    (ha : (other.eval otherText).1 = .ok answer) :
    response.text = answer.text ↔ EndAlike (calculator.run text) (other.run otherText) := by
  rcases response_cases hr with ⟨final, hf, -, rfl⟩ | ⟨cause, hc, hf, rfl⟩
  · rcases response_cases ha with ⟨otherFinal, ho, -, rfl⟩ | ⟨otherCause, hoc, ho, rfl⟩
    · rw [hf, ho]
      constructor
      · exact fun h => .values (Response.text_ok_inj h)
      · intro h
        cases h with
        | values hv => exact congrArg (fun values => (Response.ok values).text) hv
    · rw [hf, ho]
      exact iff_of_false (Response.text_ok_ne_text_mistake final.values hoc) (by rintro ⟨⟩)
  · rcases response_cases ha with ⟨otherFinal, ho, -, rfl⟩ | ⟨otherCause, -, ho, rfl⟩
    · rw [hf, ho]
      exact iff_of_false (Response.text_ok_ne_text_mistake otherFinal.values hc).symm
        (by rintro ⟨⟩)
    · rw [hf, ho]
      constructor
      · exact fun h => .message (Response.text_mistake_inj h)
      · intro h
        cases h with
        | message hm => exact congrArg mistakeText hm

/-- The line for a response can be decoded. It starts with the mark of a mistake exactly
when the run ends in one: then the rest is the message of the mistake, and the line does
not end like one for values. Otherwise the pieces in front of the word at its end are read
as the values of the state that is remembered from now on, all of them in their order and
with their signs. So two texts have the same line, on any two calculators, exactly when both
leave the same values or both make mistakes with the same message. -/
theorem responses_decode (calculator : Calculator) (text : String) :
    ∃ response, (calculator.eval text).1 = .ok response ∧
      (" ? ".toList <+: response.text.toList ↔
        ∃ cause, calculator.run text = .error (.diagnostic cause)) ∧
      ((∃ cause, calculator.run text = .error (.diagnostic cause) ∧
          response.text = " ? " ++ cause.message ∧ ¬ " ok".toList <:+ response.text.toList) ∨
        ∃ final shown, calculator.run text = .ok final ∧
          (calculator.eval text).2.lastState = some final ∧
          response.text = shown ++ " ok" ∧ readAll? shown = some final.values) ∧
      ∀ (other : Calculator) (otherText : String) (answer : Response),
        (other.eval otherText).1 = .ok answer →
          (response.text = answer.text ↔
            EndAlike (calculator.run text) (other.run otherText)) := by
  obtain ⟨response, hr, -⟩ := exists_answer calculator text
  refine ⟨response, hr, ?_, ?_, fun other otherText answer => text_eq_iff hr⟩
  · rcases response_cases hr with ⟨final, hf, -, rfl⟩ | ⟨cause, hc, hf, rfl⟩
    · refine iff_of_false (Response.not_prefix_ok final.values) ?_
      rintro ⟨cause, hcause⟩
      cases hf.symm.trans hcause
    · refine iff_of_true ?_ ⟨cause, hf⟩
      rw [Response.text, mistakeText, String.toList_append]
      exact List.prefix_append _ _
  · rcases response_cases hr with ⟨final, hf, hl, rfl⟩ | ⟨cause, hc, hf, rfl⟩
    · obtain ⟨shown, htext, hread⟩ := Response.exists_text_ok final.values
      exact Or.inr ⟨final, shown, hf, hl, htext, hread⟩
    · exact Or.inl ⟨cause, hf, rfl, Response.not_suffix_mistake hc⟩

end Calculator

end PostfixArithmetic
