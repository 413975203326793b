import PostfixArithmetic.Text.DecimalDigit
import PostfixArithmetic.Text.Quoted

/-!
# The words of the command line

Words are options or expression words. Options may stand before or after the
expression, whose words must be next to each other; two dashes make all later
words expression words. A long option may be cut short as long as it stays
unambiguous, and short options may share one dash. A word that begins like an
option but names none is still an expression word if it is a lone dash, looks like
a negative number or holds a space.
-/

namespace PostfixArithmetic

/-- What an option of the command line sets. -/
inductive Flag where
  /-- Show the help text. -/
  | help
  /-- Require exactly one value. -/
  | strict
  /-- Show the tokens and every stack. -/
  | trace
  /-- Write the journal. -/
  | verbose
deriving DecidableEq

namespace Flag

/-- The names of a flag as a message shows them. -/
def title : Flag → String
  | help => "-h/--help"
  | strict => "--strict"
  | trace => "--trace"
  | verbose => "-v/--verbose"

/-- The long option names, in the order in which ambiguities list them. -/
def longNames : List (String × Flag) :=
  [("--help", help), ("--strict", strict), ("--trace", trace), ("--verbose", verbose)]

/-- The flag of a long option name. -/
def named? (name : String) : Option Flag :=
  longNames.lookup name

/-- The flag of a letter behind a single dash. -/
def short? (letter : Char) : Option Flag :=
  [('h', help), ('v', verbose)].lookup letter

end Flag

/-- What a word before any double dash is taken for. -/
inductive Word where
  /-- Part of the expression. -/
  | positional
  /-- A long option, and the value behind its equals sign if there is one. -/
  | long (flag : Flag) (value : Option String)
  /-- A short option, and the value behind its letter if there is one. -/
  | short (flag : Flag) (value : Option (List Char))
  /-- Something that looks like an option and is none. -/
  | unknown
deriving DecidableEq

/-- A command line that cannot be understood. -/
inductive UsageError where
  /-- A shortened option fits several names. -/
  | ambiguous (word : String) (names : List String)
  /-- These words have no meaning. -/
  | unrecognized (words : List String)
  /-- A value is attached to an option that takes none. -/
  | ignoredValue (flag : Flag) (value : String)
deriving DecidableEq

/-- The text of a usage error. -/
def UsageError.message : UsageError → String
  | ambiguous word names =>
    "ambiguous option: " ++ word ++ " could match " ++ ", ".intercalate names
  | unrecognized words => "unrecognized arguments: " ++ " ".intercalate words
  | ignoredValue flag value =>
    "argument " ++ flag.title ++ ": ignored explicit argument " ++ Quoted.quote value

namespace Word

/-- Whether a text is a minus sign and a number: digits, or a point with digits
after it and perhaps before it. A line feed may follow. -/
def looksNegative (text : List Char) : Bool :=
  let body := if text.getLast? = some '\n' then text.dropLast else text
  match body with
  | '-' :: rest =>
    match rest.dropWhile isDecimalDigit with
    | [] => rest ≠ []
    | '.' :: fraction => fraction ≠ [] && fraction.all isDecimalDigit
    | _ => false
  | _ => false

/-- A word cut at its first equals sign: the part before it, and the part after
it if there is one. -/
def splitValue (text : List Char) : String × Option String :=
  let name := String.ofList (text.takeWhile (· ≠ '='))
  match text.dropWhile (· ≠ '=') with
  | [] => (name, none)
  | _ :: value => (name, some (String.ofList value))

/-- The value behind the letter of a short option, if anything is there. An equals
sign in front does not belong to it. -/
def shortValue? : List Char → Option (List Char)
  | [] => none
  | '=' :: value => some value
  | value => some value

/-- What a word is taken for that begins with a dash and names no option. -/
def ofUnnamed (text : List Char) : Word :=
  if looksNegative text || ' ' ∈ text then positional else unknown

/-- What a word before any double dash is taken for. A long option is looked up by
its full name first, and then among all names that begin with the word. -/
def classify (word : String) : Except UsageError Word :=
  let text := word.toList
  match text with
  | '-' :: '-' :: _ =>
    let (name, value) := splitValue text
    match Flag.named? name with
    | some flag => .ok (long flag value)
    | none =>
      match Flag.longNames.filter fun entry => name.isPrefixOf entry.1 with
      | [] => .ok (ofUnnamed text)
      | [(_, flag)] => .ok (long flag value)
      | several => .error (.ambiguous word (several.map (·.1)))
  | '-' :: letter :: letters =>
    match Flag.short? letter with
    | some flag => .ok (short flag (shortValue? letters))
    | none => .ok (ofUnnamed text)
  | _ => .ok positional

/-- What words amount to. -/
structure Effect where
  /-- The flags that they set. -/
  flags : List Flag
  /-- The words that have no meaning. -/
  leftOver : List String
deriving DecidableEq

/-- The flags of a short option with a value. As no option has any use for a value,
all of it must be the letters of further short options; the last of them that is
one is blamed for what follows it. -/
def clusterFlags (flag : Flag) : List Char → Except UsageError (List Flag)
  | [] => .error (.ignoredValue flag "")
  | letter :: letters =>
    match Flag.short? letter with
    | none => .error (.ignoredValue flag (String.ofList (letter :: letters)))
    | some further =>
      if letters = [] then .ok [flag, further]
      else (clusterFlags further letters).map (flag :: ·)

/-- The effect of a word outside the expression. -/
def effect (word : String) : Word → Except UsageError Effect
  | positional => .ok ⟨[], [word]⟩
  | unknown => .ok ⟨[], [word]⟩
  | long flag none => .ok ⟨[flag], []⟩
  | long flag (some value) => .error (.ignoredValue flag value)
  | short flag none => .ok ⟨[flag], []⟩
  | short flag (some value) => (clusterFlags flag value).map fun flags => ⟨flags, []⟩

/-- The effect of words from left to right. Words behind a request for help no
longer matter. -/
def collect : List (String × Word) → Except UsageError Effect
  | [] => .ok ⟨[], []⟩
  | (word, taken) :: entries => do
    let first ← effect word taken
    if .help ∈ first.flags then return first
    let others ← collect entries
    return ⟨first.flags ++ others.flags, first.leftOver ++ others.leftOver⟩

end Word

/-- The settings of a command. -/
structure Options where
  /-- Require exactly one value. -/
  strict : Bool
  /-- Show the tokens and every stack. -/
  trace : Bool
  /-- Write the journal. -/
  verbose : Bool
deriving DecidableEq

/-- What a command line asks for. -/
inductive Request where
  /-- Show the help text. -/
  | help
  /-- Evaluate the expression made of these words; without words, prompt for lines. -/
  | evaluate (options : Options) (expression : List String)
deriving DecidableEq

namespace Request

/-- Classify all words. Behind the first double dash every word is positional, and
so is the double dash itself. -/
def classifyAll : List String → Except UsageError (List (String × Word))
  | [] => .ok []
  | word :: words =>
    if word = "--" then .ok ((word :: words).map fun later => (later, .positional))
    else do
      let first ← Word.classify word
      let others ← classifyAll words
      return (word, first) :: others

/-- Whether a classified word belongs to the expression. -/
def isPositional (entry : String × Word) : Bool :=
  entry.2 = .positional

/-- What a command line asks for. The expression is the first run of positional
words, without the double dash. -/
def parse (words : List String) : Except UsageError Request := do
  let entries ← classifyAll words
  let before := entries.takeWhile (!isPositional ·)
  let fromExpression := entries.dropWhile (!isPositional ·)
  let expression := fromExpression.takeWhile isPositional
  let others ← Word.collect (before ++ fromExpression.dropWhile isPositional)
  if .help ∈ others.flags then return .help
  if others.leftOver ≠ [] then throw (.unrecognized others.leftOver)
  let options :=
    ⟨.strict ∈ others.flags, .trace ∈ others.flags, .verbose ∈ others.flags⟩
  return .evaluate options ((expression.map (·.1)).erase "--")

end Request

end PostfixArithmetic
