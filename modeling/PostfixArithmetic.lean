import PostfixArithmetic.Main
import PostfixArithmetic.Proofs.Calculator.Decoding
import PostfixArithmetic.Proofs.Calculator.Integers
import PostfixArithmetic.Proofs.Calculator.Outcome
import PostfixArithmetic.Proofs.Calculator.Session
import PostfixArithmetic.Proofs.Command.Logging
import PostfixArithmetic.Proofs.Command.Tracing
import PostfixArithmetic.Proofs.Command.Transcript
import PostfixArithmetic.Proofs.Lexer.Concatenation
import PostfixArithmetic.Proofs.Lexer.EndOfText
import PostfixArithmetic.Proofs.Lexer.Loop
import PostfixArithmetic.Proofs.Lexer.Matching
import PostfixArithmetic.Proofs.Lexer.Rendering
import PostfixArithmetic.Proofs.Lexer.Reordering
import PostfixArithmetic.Proofs.Lexer.Safety
import PostfixArithmetic.Proofs.Lexer.Selection
import PostfixArithmetic.Proofs.Lexer.Sharing
import PostfixArithmetic.Proofs.Machine.Depth
import PostfixArithmetic.Proofs.Machine.Framing
import PostfixArithmetic.Proofs.Machine.Grammar
import PostfixArithmetic.Proofs.Machine.Resuming
import PostfixArithmetic.Proofs.Machine.Simulation
import PostfixArithmetic.Proofs.Number.Division
import PostfixArithmetic.Proofs.Text.Unquoting
