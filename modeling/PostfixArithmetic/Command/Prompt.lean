import PostfixArithmetic.Calculator

/-!
# The prompt

A prompt reads lines, answers each of them and ends at a line that says goodbye or
at the end of the input. Lines end at line feeds only, and a last line without one
counts. What the user sees and what the journal says are kept apart.
-/

namespace PostfixArithmetic

/-- The two texts that a command writes. -/
structure Output where
  /-- What the user sees. -/
  out : String
  /-- Messages and the journal. -/
  err : String
deriving DecidableEq

/-- A line of text with its line feed. -/
def withNewline (line : String) : String :=
  line ++ "\n"

/-- Lines of text, each with its line feed. -/
def unlines (lines : List String) : String :=
  String.join (lines.map withNewline)

/-- What is shown of the journal: everything to a user who asks for it, and nothing to
others. -/
def journalText (verbose : Bool) (records : List Record) : String :=
  if verbose then unlines (records.map Record.line) else ""

namespace Prompt

/-- The line above the first prompt. -/
def banner : String :=
  "Type \"BYE\" or input an end of file (Ctrl+D) to quit."

/-- What invites the user to type a line. -/
def invitation : String := "> "

/-- The lines of a text. A line feed ends a line, and a text that does not end in
one has a last line without it. -/
def splitLines : List Char → List (List Char)
  | [] => []
  | c :: rest =>
    if c = '\n' then [] :: splitLines rest
    else
      match splitLines rest with
      | [] => [[c]]
      | line :: lines => (c :: line) :: lines

/-- Whether a line says goodbye: `BYE` in any case, between blanks. -/
def isFarewell (line : String) : Bool :=
  (trimBoth isBlank line.toList).map Char.toUpper = "BYE".toList

/-- The lines that are answered: those before the first goodbye. -/
def answered (input : String) : List String :=
  ((splitLines input.toList).map String.ofList).takeWhile (!isFarewell ·)

/-- Answer one line: what is written, and the calculator afterwards. -/
def answer (verbose : Bool) (calculator : Calculator) (line : String) :
    Except Failure (Output × Calculator) :=
  let (logged, later) := calculator.evalLogged line
  match logged.outcome with
  | .error failure => .error failure
  | .ok response =>
    .ok (⟨withNewline response.text, journalText verbose logged.records⟩, later)

/-- Answer lines one after another, with an invitation before each and after the
last. Each line sees the calculator that the line before left. -/
def converse (verbose : Bool) (calculator : Calculator) : List String → Except Failure Output
  | [] => .ok ⟨invitation, ""⟩
  | line :: lines => do
    let (first, later) ← answer verbose calculator line
    let others ← converse verbose later lines
    return ⟨invitation ++ first.out ++ others.out, first.err ++ others.err⟩

/-- The whole conversation for an input. -/
def session (verbose strict : Bool) (input : String) : Except Failure Output := do
  let output ← converse verbose (Calculator.new strict) (answered input)
  return { output with out := withNewline banner ++ output.out }

/-- Without line feeds a text that is not empty is a single line. -/
theorem splitLines_of_not_mem {text : List Char} (nonempty : text ≠ []) (h : '\n' ∉ text) :
    splitLines text = [text] := by
  induction text with
  | nil => contradiction
  | cons c rest ih =>
    simp only [List.mem_cons, not_or] at h
    have other : c ≠ '\n' := fun same => h.1 same.symm
    cases rest with
    | nil => simp [splitLines, other]
    | cons d others =>
      rw [splitLines, if_neg other, ih (by simp) h.2]

end Prompt

end PostfixArithmetic
