import PostfixArithmetic.Command.Run

/-!
# The program

Runs the command on the words of the command line. The prompt answers each line as
soon as it is read; everything else is written at once.
-/

namespace PostfixArithmetic.Program

/-- Write an output to the two standard streams. -/
def write (output : Output) : IO Unit := do
  IO.print output.out
  IO.eprint output.err
  (← IO.getStdout).flush

/-- A line as it was read, without its line feed. -/
def withoutNewline (line : String) : String :=
  if line.toList.getLast? = some '\n' then String.ofList line.toList.dropLast else line

/-- Prompt for lines until the input ends or a line says goodbye. -/
partial def converse (verbose : Bool) (calculator : Calculator) : IO UInt32 := do
  write ⟨Prompt.invitation, ""⟩
  let line ← (← IO.getStdin).getLine
  let text := withoutNewline line
  if line.isEmpty || Prompt.isFarewell text then return 0
  match Prompt.answer verbose calculator text with
  | .error failure =>
    write ⟨"", withNewline failure.message⟩
    return 1
  | .ok (output, later) =>
    write output
    converse verbose later

end PostfixArithmetic.Program

open PostfixArithmetic

/-- Run the command on the words of the command line. -/
def main (words : List String) : IO UInt32 := do
  match Request.parse words with
  | .ok (.evaluate options []) =>
    Program.write ⟨withNewline Prompt.banner, ""⟩
    Program.converse options.verbose (Calculator.new options.strict)
  | _ =>
    let outcome := Command.run words ""
    Program.write ⟨outcome.out, outcome.err⟩
    return outcome.exit.toUInt32
