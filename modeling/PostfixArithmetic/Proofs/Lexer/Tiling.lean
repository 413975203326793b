import Mathlib.Data.List.TakeWhile
import Mathlib.Tactic.ByContra
import PostfixArithmetic.Lexer.Scan

/-!
# Tiling a text with matches

A table of rules is tried at a position of a text: the first rule with a match that is
not empty wins there. One win after another covers the text with pieces, each of which
starts where the one before it ends. There is only one way to go on, so that the pieces
from a given position are determined as far as they reach. Splitting a text into tokens
succeeds exactly if accepted pieces reach its end; otherwise the end of the longest
chain of accepted pieces tells the failure. No assumption on the table is made: rules
may match nothing, occur twice or be missing altogether.
-/

namespace PostfixArithmetic

/-- What a pattern matches at the start of an input, where the match may be empty: the
characters of the literal, all members up to the first character that is none, or what the
matcher finds. -/
inductive Pattern.Matches : Pattern → List Char → List Char → Prop where
  /-- A literal matches its own characters. -/
  | literal (characters rest : List Char) :
    Matches (.literal characters) (characters ++ rest) characters
  /-- A run matches as many members as it can, if there are enough of them. -/
  | run {members : Char → Bool} {least : Nat} {taken rest : List Char}
    (all : ∀ c ∈ taken, members c = true) (stop : ∀ c ∈ rest.head?, members c = false)
    (enough : least ≤ taken.length) :
    Matches (.run members least) (taken ++ rest) taken
  /-- Any other pattern matches what its matcher finds. -/
  | general {matcher : Matcher} {input piece : List Char}
    (found : matcher.find? input = some piece) : Matches (.general matcher) input piece

/-- No rule of a table matches more than the empty text. -/
def NoneWins (rules : List Rule) (input : List Char) : Prop :=
  ∀ rule ∈ rules, ∀ piece, rule.pattern.Matches input piece → piece = []

/-- A rule of a table wins with a piece that is not empty: it matches the piece, and no
rule before it wins. -/
def Wins (rules : List Rule) (input piece : List Char) (rule : Rule) : Prop :=
  piece ≠ [] ∧ rule.pattern.Matches input piece ∧
    ∃ earlier later, rules = earlier ++ rule :: later ∧ NoneWins earlier input

/-- A match that a table of rules makes on a text. -/
structure Match where
  /-- The position where the matched piece starts. -/
  start : Nat
  /-- The matched piece. -/
  piece : List Char
  /-- The tokens that the winning rule builds, or nothing if it rejects the piece. -/
  built : Option (List Token)
deriving DecidableEq

/-- The tokens of a match. A rejected piece has none. -/
def Match.tokens (found : Match) : List Token :=
  found.built.getD []

/-- Matches lead from one position of a text to another: each is made where the one
before it ends. -/
inductive Tiles (rules : List Rule) (text : List Char) : Nat → List Match → Nat → Prop where
  /-- Without a match the position stays. -/
  | nil (position : Nat) : Tiles rules text position [] position
  /-- The winner's match comes first, and the others start behind its piece. -/
  | cons {start stop : Nat} {piece : List Char} {rule : Rule} {later : List Match}
    (win : Wins rules (text.drop start) piece rule)
    (rest : Tiles rules text (start + piece.length) later stop) :
    Tiles rules text start (⟨start, piece, rule.build (String.ofList piece)⟩ :: later) stop

/-- No match of a chain is rejected. -/
def Accepted (chain : List Match) : Prop :=
  ∀ found ∈ chain, found.built ≠ none

/-- How lexing ends at a position where no accepted match can be made: without a
failure at the end of the text, with a rejected piece, or with a character that no rule
matches. -/
inductive Halts (rules : List Rule) (text : List Char) (position : Nat) :
    Option Failure → Prop where
  /-- There is no text left. -/
  | finished (h : text.length ≤ position) : Halts rules text position none
  /-- The winning rule rejects its piece. -/
  | rejected {piece : List Char} {rule : Rule} (win : Wins rules (text.drop position) piece rule)
    (h : rule.build (String.ofList piece) = none) :
    Halts rules text position (some (.badNumeral (String.ofList piece)))
  /-- There is a character, but no rule wins. -/
  | unrecognized {c : Char} (h : text[position]? = some c)
    (none : NoneWins rules (text.drop position)) :
    Halts rules text position
      (some (.diagnostic (.unrecognized position (String.singleton c))))

/-- What comes out when lexing ends so behind some tokens. -/
def answerAt (tokens : List Token) : Option Failure → Except Failure (List Token)
  | none => .ok tokens
  | some failure => .error failure

/-- Accepted matches that lead through a whole text. -/
def Tiling (rules : List Rule) (text : List Char) (chain : List Match) : Prop :=
  Tiles rules text 0 chain text.length ∧ Accepted chain

/-- The matches that count are those that are not empty. -/
theorem Pattern.piece?_eq_some_iff {pattern : Pattern} {input piece : List Char} :
    pattern.piece? input = some piece ↔ piece ≠ [] ∧ pattern.Matches input piece := by
  cases pattern with
  | literal characters =>
    simp only [piece?, Option.ite_none_right_eq_some, Option.some.injEq,
      List.isPrefixOf_iff_prefix]
    constructor
    · rintro ⟨⟨hne, rest, rfl⟩, rfl⟩
      exact ⟨hne, .literal characters rest⟩
    · rintro ⟨hne, hm⟩
      cases hm with
      | literal _ rest => exact ⟨⟨hne, rest, rfl⟩, rfl⟩
  | run members least =>
    simp only [piece?, Option.ite_none_right_eq_some, Option.some.injEq]
    constructor
    · rintro ⟨⟨hne, hl⟩, rfl⟩
      have hm : (Pattern.run members least).Matches
          (input.takeWhile members ++ input.dropWhile members) (input.takeWhile members) := by
        refine .run (fun c => List.mem_takeWhile_imp) (fun c hc => ?_) hl
        have hn := List.head?_dropWhile_not members input
        rw [hc] at hn
        exact hn
      rw [List.takeWhile_append_dropWhile] at hm
      exact ⟨hne, hm⟩
    · rintro ⟨hne, hm⟩
      cases hm with
      | @run _ _ _ rest all stop enough =>
        have hstop : rest.takeWhile members = [] := by
          cases rest with
          | nil => rfl
          | cons c rest =>
            exact List.takeWhile_cons_of_neg (by rw [stop c rfl]; exact Bool.false_ne_true)
        have htake : (piece ++ rest).takeWhile members = piece := by
          rw [List.takeWhile_append_of_pos all, hstop, List.append_nil]
        rw [htake]
        exact ⟨⟨hne, enough⟩, rfl⟩
  | general matcher =>
    constructor
    · exact fun h => ⟨(matcher.nonempty_prefix h).1, .general h⟩
    · rintro ⟨-, hm⟩
      cases hm with
      | general found => exact found

/-- A literal that is not empty matches itself. -/
theorem Pattern.piece?_literal_self {characters : List Char} (h : characters ≠ []) :
    (literal characters).piece? characters = some characters := by
  have hm := Matches.literal characters []
  rw [List.append_nil] at hm
  exact Pattern.piece?_eq_some_iff.mpr ⟨h, hm⟩

/-- A run matches any member that is repeated often enough. -/
theorem Pattern.piece?_replicate {members : Char → Bool} {c : Char} (h : members c = true)
    (least : Nat) : (run members least).piece? (c :: List.replicate least c) =
      some (c :: List.replicate least c) := by
  have hall : ∀ d ∈ c :: List.replicate least c, members d = true :=
    List.forall_mem_cons.mpr ⟨h, fun d hd => List.eq_of_mem_replicate hd ▸ h⟩
  have hl : least ≤ (c :: List.replicate least c).length := by
    rw [List.length_cons, List.length_replicate]
    exact Nat.le_succ least
  have hstop : ∀ d ∈ ([] : List Char).head?, members d = false := fun d hd => nomatch hd
  have hm := Matches.run hall hstop hl
  rw [List.append_nil] at hm
  exact Pattern.piece?_eq_some_iff.mpr ⟨List.cons_ne_nil _ _, hm⟩

/-- A pattern has no match that counts exactly if it matches nothing but the empty text. -/
theorem Pattern.piece?_eq_none_iff {pattern : Pattern} {input : List Char} :
    pattern.piece? input = none ↔ ∀ piece, pattern.Matches input piece → piece = [] := by
  constructor
  · intro h piece hm
    by_contra hne
    have hs := Pattern.piece?_eq_some_iff.mpr ⟨hne, hm⟩
    rw [h] at hs
    cases hs
  · intro h
    cases hp : pattern.piece? input with
    | none => rfl
    | some piece =>
      obtain ⟨hne, hm⟩ := Pattern.piece?_eq_some_iff.mp hp
      exact absurd (h piece hm) hne

/-- There is no winner exactly if no rule wins. -/
theorem winner?_eq_none_iff_noneWins {rules : List Rule} {input : List Char} :
    winner? rules input = none ↔ NoneWins rules input := by
  simp only [winner?_eq_none_iff, Pattern.piece?_eq_none_iff, NoneWins]

/-- The winner is the rule that wins, with its piece. -/
theorem winner?_eq_some_iff {rules : List Rule} {input piece : List Char} {rule : Rule} :
    winner? rules input = some (piece, rule) ↔ Wins rules input piece rule := by
  rw [winner?, List.findSome?_eq_some_iff]
  constructor
  · rintro ⟨earlier, candidate, later, rfl, hp, hn⟩
    obtain ⟨found, hf, he⟩ := Option.map_eq_some_iff.mp hp
    cases he
    obtain ⟨hne, hm⟩ := Pattern.piece?_eq_some_iff.mp hf
    refine ⟨hne, hm, earlier, later, rfl, fun other ho => ?_⟩
    exact Pattern.piece?_eq_none_iff.mp (Option.map_eq_none_iff.mp (hn other ho))
  · rintro ⟨hne, hm, earlier, later, rfl, hn⟩
    refine ⟨earlier, rule, later, rfl, ?_, fun other ho => ?_⟩
    · rw [Pattern.piece?_eq_some_iff.mpr ⟨hne, hm⟩, Option.map_some]
    · rw [Pattern.piece?_eq_none_iff.mpr (hn other ho), Option.map_none]

/-- There is one winner at most. -/
theorem Wins.unique {rules : List Rule} {input piece found : List Char} {rule other : Rule}
    (h : Wins rules input piece rule) (ho : Wins rules input found other) :
    found = piece ∧ other = rule := by
  have hp := (winner?_eq_some_iff.mpr ho).symm.trans (winner?_eq_some_iff.mpr h)
  cases hp
  exact ⟨rfl, rfl⟩

/-- The winner's piece stands at the start of the input. -/
theorem Wins.exists_rest {rules : List Rule} {input piece : List Char} {rule : Rule}
    (h : Wins rules input piece rule) : ∃ rest, input = piece ++ rest := by
  have hp := (mem_and_piece_of_winner (winner?_eq_some_iff.mpr h)).2
  obtain ⟨rest, hr⟩ := (Pattern.nonempty_prefix_of_piece hp).2
  exact ⟨rest, hr.symm⟩

/-- Where a rule wins there is text left. -/
theorem Wins.add_length_le {rules : List Rule} {text piece : List Char} {rule : Rule}
    {position : Nat} (h : Wins rules (text.drop position) piece rule) :
    position + piece.length ≤ text.length := by
  obtain ⟨rest, hr⟩ := h.exists_rest
  have hpos : 0 < piece.length := List.length_pos_iff.mpr h.1
  have hl := congrArg List.length hr
  rw [List.length_drop, List.length_append] at hl
  omega

namespace Tiles

variable {rules : List Rule} {text : List Char} {start middle stop : Nat}

/-- Chains are put together where one ends and the other starts. -/
theorem append {earlier later : List Match} (h : Tiles rules text start earlier middle)
    (hl : Tiles rules text middle later stop) :
    Tiles rules text start (earlier ++ later) stop := by
  induction h with
  | nil position => exact hl
  | cons win rest ih => exact .cons win (ih hl)

/-- No piece of a chain is empty. -/
theorem piece_ne_nil {chain : List Match} (h : Tiles rules text start chain stop) :
    ∀ found ∈ chain, found.piece ≠ [] := by
  induction h with
  | nil position => exact List.forall_mem_nil _
  | cons win rest ih => exact List.forall_mem_cons.mpr ⟨win.1, ih⟩

/-- A chain ends behind the characters of its pieces. -/
theorem stop_eq {chain : List Match} (h : Tiles rules text start chain stop) :
    stop = start + (chain.flatMap Match.piece).length := by
  induction h with
  | nil position => rfl
  | cons win rest ih => rw [List.flatMap_cons, List.length_append, ih, Nat.add_assoc]

/-- The pieces of a chain, one after another, are the text from its start to its end. -/
theorem drop_eq {chain : List Match} (h : Tiles rules text start chain stop) :
    text.drop start = chain.flatMap Match.piece ++ text.drop stop := by
  induction h with
  | nil position => rfl
  | @cons start stop piece rule later win rest ih =>
    obtain ⟨left, hr⟩ := win.exists_rest
    have hd : text.drop (start + piece.length) = left := by
      rw [← List.drop_drop, hr, List.drop_left]
    rw [List.flatMap_cons, List.append_assoc, ← ih, hd, hr]

/-- A chain has one match for each character at most. -/
theorem length_le {chain : List Match} (h : Tiles rules text start chain stop) :
    start + chain.length ≤ stop := by
  induction h with
  | nil position => exact Nat.le_refl _
  | @cons start stop piece rule later win rest ih =>
    have hpos : 0 < piece.length := List.length_pos_iff.mpr win.1
    rw [List.length_cons]
    omega

/-- A chain without a match ends where it starts. -/
theorem eq_nil_of_stop_le {chain : List Match} (h : Tiles rules text start chain stop)
    (hs : stop ≤ start) : chain = [] := by
  have hl := h.length_le
  exact List.length_eq_zero_iff.mp (by omega)

/-- Of two chains from the same position, one goes on from the end of the other. -/
theorem append_or_append {chain others : List Match} {finish : Nat}
    (h : Tiles rules text start chain stop) (ho : Tiles rules text start others finish) :
    (∃ later, others = chain ++ later ∧ Tiles rules text stop later finish) ∨
      ∃ later, chain = others ++ later ∧ Tiles rules text finish later stop := by
  induction h generalizing others with
  | nil position => exact Or.inl ⟨others, rfl, ho⟩
  | cons win rest ih =>
    cases ho with
    | nil position => exact Or.inr ⟨_, rfl, .cons win rest⟩
    | cons winner follow =>
      obtain ⟨rfl, rfl⟩ := win.unique winner
      rcases ih follow with ⟨later, rfl, hl⟩ | ⟨later, rfl, hl⟩
      · exact Or.inl ⟨later, rfl, hl⟩
      · exact Or.inr ⟨later, rfl, hl⟩

/-- Between two positions there is one chain at most. -/
theorem unique {chain others : List Match} (h : Tiles rules text start chain stop)
    (ho : Tiles rules text start others stop) : others = chain := by
  rcases h.append_or_append ho with ⟨later, rfl, hl⟩ | ⟨later, rfl, hl⟩
  · rw [hl.eq_nil_of_stop_le (Nat.le_refl _), List.append_nil]
  · rw [hl.eq_nil_of_stop_le (Nat.le_refl _), List.append_nil]

end Tiles

/-- An input is empty, has no winner, or starts with the winner's piece. A property of
inputs that a piece passes on from what is behind it holds of every input. -/
@[elab_as_elim]
theorem winner_induction (rules : List Rule) {motive : List Char → Prop} (nil : motive [])
    (none : ∀ c rest, winner? rules (c :: rest) = none → motive (c :: rest))
    (some : ∀ piece rest rule, winner? rules (piece ++ rest) = some (piece, rule) →
      motive rest → motive (piece ++ rest)) (input : List Char) : motive input := by
  induction hl : input.length using Nat.strongRecOn generalizing input with
  | ind length ih =>
    subst hl
    cases input with
    | nil => exact nil
    | cons c rest =>
      cases hw : winner? rules (c :: rest) with
      | none => exact none c rest hw
      | some found =>
        obtain ⟨piece, rule⟩ := found
        have hlt := length_drop_winner_lt hw
        obtain ⟨left, hr⟩ := (winner?_eq_some_iff.mp hw).exists_rest
        rw [hr] at hw hlt ih ⊢
        rw [List.drop_left] at hlt
        exact some piece left rule hw (ih _ hlt left rfl)

/-- A position where lexing ends is not passed by an accepted chain. -/
theorem Halts.eq_nil {rules : List Rule} {text : List Char} {position stop : Nat}
    {ending : Option Failure} {chain : List Match} (h : Halts rules text position ending)
    (ht : Tiles rules text position chain stop) (ha : Accepted chain) : chain = [] := by
  cases ht with
  | nil position => rfl
  | cons win rest =>
    have hb := (List.forall_mem_cons.mp ha).1
    have hl := win.add_length_le
    have hpos := List.length_pos_iff.mpr win.1
    cases h with
    | finished h => omega
    | rejected winner h =>
      obtain ⟨rfl, rfl⟩ := win.unique winner
      exact absurd h hb
    | unrecognized h none =>
      have hn := winner?_eq_none_iff_noneWins.mpr none
      rw [winner?_eq_some_iff.mpr win] at hn
      cases hn

/-- A chain to where lexing ends goes on from the end of every accepted chain. -/
theorem Halts.exists_later {rules : List Rule} {text : List Char} {start stop finish : Nat}
    {ending : Option Failure} {chain others : List Match} (h : Halts rules text stop ending)
    (ht : Tiles rules text start chain stop) (ho : Tiles rules text start others finish)
    (ha : Accepted others) :
    ∃ later, chain = others ++ later ∧ Tiles rules text finish later stop := by
  rcases ht.append_or_append ho with ⟨later, rfl, hl⟩ | ⟨later, rfl, hl⟩
  · have hn := h.eq_nil hl fun found hm => ha found (List.mem_append_right _ hm)
    subst hn
    cases hl
    exact ⟨[], by rw [List.append_nil, List.append_nil], .nil _⟩
  · exact ⟨later, rfl, hl⟩

/-- A winner's match is taken off the front of what is scanned. -/
theorem Wins.scan_eq {rules : List Rule} {text piece : List Char} {rule : Rule} {start : Nat}
    {tokens : List Token} (h : Wins rules (text.drop start) piece rule)
    (built : rule.build (String.ofList piece) = some tokens) :
    scan rules start (text.drop start) =
      (scan rules (start + piece.length) (text.drop (start + piece.length))).prepend tokens := by
  have hw := winner?_eq_some_iff.mpr h
  obtain ⟨rest, hr⟩ := h.exists_rest
  obtain ⟨c, others, rfl⟩ := List.exists_cons_of_ne_nil h.1
  rw [← List.drop_drop]
  rw [hr] at hw ⊢
  exact scan_of_winner hw built start

/-- An accepted chain puts its tokens in front of those from its end on. -/
theorem Tiles.outcome_scan {rules : List Rule} {text : List Char} {start stop : Nat}
    {chain : List Match} (h : Tiles rules text start chain stop) (ha : Accepted chain) :
    (scan rules start (text.drop start)).outcome =
      (scan rules stop (text.drop stop)).outcome.map (chain.flatMap Match.tokens ++ ·) := by
  induction h with
  | nil position => cases (scan rules position (text.drop position)).outcome <;> rfl
  | @cons start stop piece rule later win rest ih =>
    obtain ⟨hb, hlater⟩ := List.forall_mem_cons.mp ha
    obtain ⟨tokens, hbuilt⟩ := Option.ne_none_iff_exists'.mp hb
    have ht : Match.tokens ⟨start, piece, rule.build (String.ofList piece)⟩ = tokens := by
      rw [Match.tokens, hbuilt, Option.getD_some]
    rw [win.scan_eq hbuilt, Scan.prepend, ih hlater, List.flatMap_cons, ht]
    cases (scan rules stop (text.drop stop)).outcome with
    | error failure => rfl
    | ok others => exact congrArg Except.ok (List.append_assoc _ _ _).symm

/-- Where lexing ends, a scan answers without tokens or with the failure. -/
theorem Halts.outcome_scan {rules : List Rule} {text : List Char} {position : Nat}
    {ending : Option Failure} (h : Halts rules text position ending) :
    (scan rules position (text.drop position)).outcome = answerAt [] ending := by
  cases h with
  | finished h =>
    rw [List.drop_eq_nil_iff.mpr h, scan]
    rfl
  | @rejected piece rule win h =>
    have hw := winner?_eq_some_iff.mpr win
    obtain ⟨rest, hr⟩ := win.exists_rest
    obtain ⟨c, others, rfl⟩ := List.exists_cons_of_ne_nil win.1
    rw [hr] at hw ⊢
    exact congrArg Scan.outcome (scan_of_rejected hw h position)
  | @unrecognized c h none =>
    have hw := winner?_eq_none_iff_noneWins.mpr none
    obtain ⟨hl, hc⟩ := List.getElem?_eq_some_iff.mp h
    rw [List.drop_eq_getElem_cons hl, hc] at hw ⊢
    exact congrArg Scan.outcome (scan_of_no_winner hw position)

/-- A scan answers with the tokens of an accepted chain, if lexing ends behind it
without a failure, and otherwise with the failure there. -/
theorem Tiles.outcome_of_halts {rules : List Rule} {text : List Char} {start stop : Nat}
    {chain : List Match} {ending : Option Failure} (h : Tiles rules text start chain stop)
    (ha : Accepted chain) (he : Halts rules text stop ending) :
    (scan rules start (text.drop start)).outcome =
      answerAt (chain.flatMap Match.tokens) ending := by
  rw [h.outcome_scan ha, he.outcome_scan]
  cases ending with
  | none => exact congrArg Except.ok (List.append_nil _)
  | some failure => rfl

/-- From any position, accepted matches lead to one where lexing ends. -/
theorem exists_halts (rules : List Rule) (text : List Char) (start : Nat) :
    ∃ chain stop ending, Tiles rules text start chain stop ∧ Accepted chain ∧
      Halts rules text stop ending := by
  induction hi : text.drop start using winner_induction rules generalizing start with
  | nil =>
    exact ⟨[], start, none, .nil start, List.forall_mem_nil _,
      .finished (List.drop_eq_nil_iff.mp hi)⟩
  | none c rest hw =>
    have hc : text[start]? = some c := by
      rw [← List.head?_drop, hi]
      rfl
    rw [← hi] at hw
    exact ⟨[], start, _, .nil start, List.forall_mem_nil _,
      .unrecognized hc (winner?_eq_none_iff_noneWins.mp hw)⟩
  | some piece rest rule hw ih =>
    rw [← hi] at hw
    have win := winner?_eq_some_iff.mp hw
    cases hb : rule.build (String.ofList piece) with
    | none => exact ⟨[], start, _, .nil start, List.forall_mem_nil _, .rejected win hb⟩
    | some tokens =>
      have hrest : text.drop (start + piece.length) = rest := by
        rw [← List.drop_drop, hi, List.drop_left]
      obtain ⟨chain, stop, ending, ht, ha, he⟩ := ih _ hrest
      refine ⟨_, stop, ending, .cons win ht, List.forall_mem_cons.mpr ⟨?_, ha⟩, he⟩
      rw [hb]
      exact Option.some_ne_none tokens

/-- A chain from the start of a text ends within the text. -/
theorem Tiles.stop_le_length {rules : List Rule} {text : List Char} {stop : Nat}
    {chain : List Match} (h : Tiles rules text 0 chain stop) : stop ≤ text.length := by
  have hs := h.stop_eq
  have hl := congrArg List.length h.drop_eq
  rw [List.drop_zero, List.length_append] at hl
  omega

/-- Tokens come out exactly if accepted matches lead through the text. -/
theorem tokenizeWith_eq_ok_iff {rules : List Rule} {text : String} {tokens : List Token} :
    tokenizeWith rules text = .ok tokens ↔
      ∃ chain, Tiling rules text.toList chain ∧ tokens = chain.flatMap Match.tokens := by
  constructor
  · intro h
    obtain ⟨chain, stop, ending, ht, ha, he⟩ := exists_halts rules text.toList 0
    have ho := ht.outcome_of_halts ha he
    rw [List.drop_zero] at ho
    rw [tokenizeWith, ho] at h
    cases he with
    | finished hf =>
      cases h
      have hstop := Nat.le_antisymm ht.stop_le_length hf
      exact ⟨chain, ⟨hstop ▸ ht, ha⟩, rfl⟩
    | rejected win hb => cases h
    | unrecognized hc none => cases h
  · rintro ⟨chain, ⟨ht, ha⟩, rfl⟩
    exact ht.outcome_of_halts ha (.finished (Nat.le_refl _))

/-- A failure comes out exactly if an accepted chain leads to the position where lexing
ends with it. There is no longer chain then. -/
theorem tokenizeWith_eq_error_iff {rules : List Rule} {text : String} {failure : Failure} :
    tokenizeWith rules text = .error failure ↔
      ∃ chain stop, Tiles rules text.toList 0 chain stop ∧ Accepted chain ∧
        (∀ others finish, Tiles rules text.toList 0 others finish → Accepted others →
          others <+: chain) ∧
        Halts rules text.toList stop (some failure) := by
  constructor
  · intro h
    obtain ⟨chain, stop, ending, ht, ha, he⟩ := exists_halts rules text.toList 0
    have ho := ht.outcome_of_halts ha he
    rw [List.drop_zero] at ho
    rw [tokenizeWith, ho] at h
    cases ending with
    | none => cases h
    | some found =>
      cases h
      refine ⟨chain, stop, ht, ha, fun others finish hot hoa => ?_, he⟩
      obtain ⟨later, rfl, -⟩ := he.exists_later ht hot hoa
      exact List.prefix_append others later
  · rintro ⟨chain, stop, ht, ha, -, he⟩
    exact ht.outcome_of_halts ha he

/-- Splitting a text with any table of rules is tiling it: tokens come out exactly if
there are accepted matches that lead through the whole text, and they are the tokens of
these matches in order. The pieces are not empty and make up the text, so that there are
at most as many as there are characters, and there is only one such chain. Otherwise
the failure is that at the end of the longest accepted chain: a piece that the winning
rule rejects, or a character where no rule wins. -/
theorem tokenizeWith_tiling (rules : List Rule) (text : String) :
    (∀ tokens, tokenizeWith rules text = .ok tokens ↔
      ∃ chain, Tiling rules text.toList chain ∧ tokens = chain.flatMap Match.tokens) ∧
    (∀ chain, Tiling rules text.toList chain →
      text.toList = chain.flatMap Match.piece ∧ (∀ found ∈ chain, found.piece ≠ []) ∧
        chain.length ≤ text.toList.length ∧
        ∀ others, Tiling rules text.toList others → others = chain) ∧
    ∀ failure, tokenizeWith rules text = .error failure ↔
      ∃ chain stop, Tiles rules text.toList 0 chain stop ∧ Accepted chain ∧
        (∀ others finish, Tiles rules text.toList 0 others finish → Accepted others →
          others <+: chain) ∧
        Halts rules text.toList stop (some failure) := by
  refine ⟨fun tokens => tokenizeWith_eq_ok_iff, fun chain h => ?_,
    fun failure => tokenizeWith_eq_error_iff⟩
  have hd := h.1.drop_eq
  have hl := h.1.length_le
  rw [List.drop_zero, List.drop_length, List.append_nil] at hd
  rw [Nat.zero_add] at hl
  exact ⟨hd, h.1.piece_ne_nil, hl, fun others ho => h.1.unique ho.1⟩

/-- A rule may look for anything: this one takes the longer of two words where it stands. -/
example :
    let either : Matcher :=
      { find? := fun input =>
          ((Pattern.literal ['a', 'b']).piece? input).or ((Pattern.literal ['a']).piece? input)
        nonempty_prefix := fun h =>
          (Option.or_eq_some_iff.mp h).elim Pattern.nonempty_prefix_of_piece fun h =>
            Pattern.nonempty_prefix_of_piece h.2 }
    tokenizeWith [.operator (.general either)] "aba" = .ok [.operator "ab", .operator "a"] := by
  decide +kernel

end PostfixArithmetic
