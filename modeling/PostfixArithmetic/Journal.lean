import PostfixArithmetic.Failure

/-!
# The journal

What is written down while a text is evaluated: that it was lexed, each token that the
machine read, and, at the prompt, the mistake that ended it. Every record is one line,
because texts are quoted. An operation that writes hands its records on with its outcome,
and it is for the caller to show them or not.
-/

namespace PostfixArithmetic

/-- An entry of the journal. -/
inductive Record where
  /-- A text was split into so many tokens. -/
  | lexed (text : String) (count : Nat)
  /-- The machine has read so many of all tokens. -/
  | read (count total : Nat)
  /-- The evaluation of a text ended in a mistake. -/
  | mistake (text : String) (cause : Diagnostic)
deriving DecidableEq

namespace Record

/-- The component that an entry is about. -/
def component : Record → String
  | lexed _ _ => "rpn.lexer"
  | read _ _ => "rpn.machine"
  | mistake _ _ => "rpn.machine"

/-- The wording of an entry. -/
def message : Record → String
  | lexed text count => "lexed " ++ Quoted.quote text ++ " into " ++ toString count ++ " tokens"
  | read count total => "read token " ++ toString count ++ " of " ++ toString total
  | mistake text cause => "error evaluating " ++ Quoted.quote text ++ ": " ++ cause.message

/-- An entry as a line of the journal. -/
def line (entry : Record) : String :=
  entry.component ++ ": " ++ entry.message

end Record

/-- What an operation that writes to the journal comes to. -/
structure Logged (α : Type) where
  /-- The value of the operation, or its failure. -/
  outcome : Except Failure α
  /-- The entries that it wrote, also those before a failure. -/
  records : List Record

namespace Logged

variable {α β : Type}

/-- An operation that writes nothing. -/
def quiet (outcome : Except Failure α) : Logged α :=
  ⟨outcome, []⟩

/-- One operation, and then another that is given its value. A failure of the first keeps
the second from writing. -/
def andThen (first : Logged α) (next : α → Logged β) : Logged β :=
  match first.outcome with
  | .error failure => ⟨.error failure, first.records⟩
  | .ok value => ⟨(next value).outcome, first.records ++ (next value).records⟩

instance : Monad Logged where
  pure value := quiet (.ok value)
  bind := andThen

instance : MonadLift (Except Failure) Logged where
  monadLift := quiet

/-- Write one entry. -/
def write (entry : Record) : Logged Unit :=
  ⟨.ok (), [entry]⟩

/-- Apart from the journal, operations follow one another as ever. -/
theorem outcome_bind (first : Logged α) (next : α → Logged β) :
    (first >>= next).outcome = first.outcome >>= fun value => (next value).outcome := by
  change (first.andThen next).outcome = _
  rw [andThen]
  cases first.outcome <;> rfl

/-- The entries of the second operation come after those of the first. -/
theorem records_bind_of_ok {first : Logged α} {value : α} (h : first.outcome = .ok value)
    (next : α → Logged β) : (first >>= next).records = first.records ++ (next value).records := by
  change (first.andThen next).records = _
  rw [andThen, h]

/-- There are none if the first fails. -/
theorem records_bind_of_error {first : Logged α} {failure : Failure}
    (h : first.outcome = .error failure) (next : α → Logged β) :
    (first >>= next).records = first.records := by
  change (first.andThen next).records = _
  rw [andThen, h]

/-- Nor are there any if the second writes nothing. -/
theorem records_bind_of_quiet (first : Logged α) {next : α → Logged β}
    (h : ∀ value, (next value).records = []) : (first >>= next).records = first.records := by
  cases ho : first.outcome with
  | error failure => exact records_bind_of_error ho next
  | ok value => rw [records_bind_of_ok ho, h, List.append_nil]

end Logged

end PostfixArithmetic
