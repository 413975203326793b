import PostfixArithmetic.Command.Prompt
import PostfixArithmetic.Command.Trace
import PostfixArithmetic.Command.Usage

/-!
# The command

A command is a function from its words and its input to an exit code and two
texts. With an expression it evaluates the words joined by spaces; without one it
prompts. Mistakes in an expression exit with 1, and mistakes in the command line
with 2.
-/

namespace PostfixArithmetic

/-- What a command leaves behind. -/
structure Outcome where
  /-- The exit code. -/
  exit : Nat
  /-- Everything written to the standard output. -/
  out : String
  /-- Everything written to the standard error output. -/
  err : String
deriving DecidableEq

namespace Command

/-- How the command is called. -/
def usage : String :=
  "usage: rpn [-h] [--strict] [--trace] [-v] [expression ...]"

/-- The help text. -/
def help : List String :=
  [usage,
    "",
    "Evaluate postfix arithmetic.",
    "",
    "positional arguments:",
    "  expression     expression to evaluate; starts a prompt if omitted",
    "",
    "options:",
    "  -h, --help     show this help message and exit",
    "  --strict       require the expression to leave exactly one value",
    "  --trace        print the tokens and every intermediate stack",
    "  -v, --verbose"]

/-- The lines that show how a text was evaluated and what it left, with the journal. -/
def report (calculator : Calculator) (trace : Bool) (text : String) : Logged (List String) :=
  if trace then do
    let traced ← calculator.trace text
    return traced.lines ++ [traced.final.response.text]
  else do
    let final ← calculator.runLogged text
    return [final.response.text]

/-- Evaluate one text. The journal comes before the message about a mistake. -/
def evaluateText (options : Options) (text : String) : Outcome :=
  let reported := report (Calculator.new options.strict) options.trace text
  let journal := journalText options.verbose reported.records
  match reported.outcome with
  | .ok lines => ⟨0, unlines lines, journal⟩
  | .error failure => ⟨1, "", journal ++ withNewline (mistakeText failure.message)⟩

/-- Prompt for lines from the input. -/
def prompt (options : Options) (input : String) : Outcome :=
  match Prompt.session options.verbose options.strict input with
  | .ok output => ⟨0, output.out, output.err⟩
  | .error failure => ⟨1, "", withNewline failure.message⟩

/-- Run the command on its words and its standard input. -/
def run (words : List String) (input : String) : Outcome :=
  match Request.parse words with
  | .error mistake => ⟨2, "", unlines [usage, "rpn: error: " ++ mistake.message]⟩
  | .ok .help => ⟨0, unlines help, ""⟩
  | .ok (.evaluate options []) => prompt options input
  | .ok (.evaluate options expression) => evaluateText options (" ".intercalate expression)

end Command

end PostfixArithmetic
