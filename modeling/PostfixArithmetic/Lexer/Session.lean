import PostfixArithmetic.Lexer.Cursor

/-!
# Sessions on one lexer

Several clients may share a cursor. A feed hands out tokens one at a time: first
those that are pending from its last match, then those of the next match at the
shared cursor. A feed that has ended or failed stays ended, whatever happens to
the cursor. A session runs a list of actions on one cursor and its feeds.
-/

namespace PostfixArithmetic

/-- A client that takes tokens one at a time. -/
inductive Feed where
  /-- The feed hands out these tokens before it lexes again. -/
  | active (pending : List Token)
  /-- The feed has no more tokens. -/
  | ended
deriving DecidableEq

/-- The next token of a feed at a cursor, and both of them afterwards. -/
def Feed.pull (feed : Feed) (cursor : Cursor) : Except Failure Token × Feed × Cursor :=
  match feed with
  | ended => (.error .endOfText, ended, cursor)
  | active (token :: pending) => (.ok token, active pending, cursor)
  | active [] =>
    match cursor.nextToken with
    | (.ok (some (token, pending)), moved) => (.ok token, active pending, moved)
    | (.ok none, moved) => (.error .endOfText, ended, moved)
    | (.error failure, moved) => (.error failure, ended, moved)

/-- Something a client may ask of a shared lexer. -/
inductive Action where
  /-- Lex once. -/
  | next
  /-- Lex to the end of the text. -/
  | tokens
  /-- Try one pattern. -/
  | consume (pattern : Pattern)
  /-- Open a new feed. -/
  | generate
  /-- Take a token from the feed of this number. -/
  | pull (feed : Nat)
  /-- Move to a position. -/
  | seek (position : Nat)

/-- The answer to an action. -/
inductive Answer where
  /-- The tokens that were lexed. -/
  | tokens (list : List Token)
  /-- The text that a pattern matched, if it did. -/
  | piece (matched : Option String)
  /-- The number of the new feed. -/
  | feed (number : Nat)
  /-- The token that a feed handed out. -/
  | token (single : Token)
  /-- The cursor has moved. -/
  | moved
deriving DecidableEq

/-- A cursor and the feeds that share it, in the order in which they were opened. -/
structure Session where
  /-- The shared cursor. -/
  cursor : Cursor
  /-- The feeds, numbered from zero. -/
  feeds : List Feed

namespace Session

/-- A session at the start of a text, without feeds. -/
def start (rules : List Rule) (text : String) : Session :=
  ⟨Cursor.start rules text, []⟩

/-- Perform one action. A feed that was never opened counts as ended. -/
def perform (session : Session) : Action → Except Failure Answer × Session
  | .next =>
    let (answer, cursor) := session.cursor.next
    (answer.map .tokens, { session with cursor })
  | .tokens =>
    let (answer, cursor) := session.cursor.tokens
    (answer.map .tokens, { session with cursor })
  | .consume pattern =>
    let (answer, cursor) := session.cursor.consume pattern
    (answer.map .piece, { session with cursor })
  | .generate =>
    (.ok (.feed session.feeds.length), { session with feeds := session.feeds ++ [.active []] })
  | .pull number =>
    let (answer, feed, cursor) := (session.feeds.getD number .ended).pull session.cursor
    (answer.map .token, ⟨cursor, session.feeds.set number feed⟩)
  | .seek position => (.ok .moved, { session with cursor := session.cursor.seek position })

/-- Perform actions one after another: each answer with the session after it. -/
def run (session : Session) : List Action → List (Except Failure Answer × Session)
  | [] => []
  | action :: actions =>
    let (answer, later) := session.perform action
    (answer, later) :: later.run actions

end Session

end PostfixArithmetic
