import PostfixArithmetic.Proofs.Lexer.Matching
import PostfixArithmetic.Proofs.Lexer.Selection

/-!
# Clients that share one lexer

Any number of feeds may take tokens from one cursor, in any order, while others ask the
cursor itself. All matches together tile the text, whoever makes them, since there is
only one position. The tokens of a match belong to the client that makes it: a feed hands
them out in order before it lexes again, and what it has not handed out is pending. So if
no match has more than one token, nothing is ever pending, and all clients together hand
out the first tokens of the only sequence that there is. A feed that has ended or failed
stays ended.
-/

namespace PostfixArithmetic

/-- The tokens that an answer hands out. -/
def handedOut : Except Failure Answer → List Token
  | .ok (.tokens list) => list
  | .ok (.token single) => [single]
  | _ => []

/-- Whatever piece of a text a rule of a table wins with, it builds one token of it at
most and does not reject it. -/
def BuildsOneAtMost (rules : List Rule) : Prop :=
  ∀ input piece rule, Wins rules input piece rule →
    ∃ tokens, rule.build (String.ofList piece) = some tokens ∧ tokens.length ≤ 1

section

variable {rules : List Rule} {text : List Char} {start stop : Nat} {chain : List Match}

/-- With such a table every match is accepted and has one token at most. -/
theorem BuildsOneAtMost.built_of_mem (h : BuildsOneAtMost rules)
    (ht : Tiles rules text start chain stop) :
    ∀ found ∈ chain, ∃ tokens, found.built = some tokens ∧ tokens.length ≤ 1 := by
  induction ht with
  | nil position => exact List.forall_mem_nil _
  | cons win rest ih => exact List.forall_mem_cons.mpr ⟨h _ _ _ win, ih⟩

/-- No match is rejected. -/
theorem BuildsOneAtMost.accepted (h : BuildsOneAtMost rules)
    (ht : Tiles rules text start chain stop) : Accepted chain := by
  intro found hf hn
  obtain ⟨tokens, hb, -⟩ := h.built_of_mem ht found hf
  rw [hn] at hb
  cases hb

/-- No match has more than one token. -/
theorem BuildsOneAtMost.length_tokens_le (h : BuildsOneAtMost rules)
    (ht : Tiles rules text start chain stop) : ∀ found ∈ chain, found.tokens.length ≤ 1 := by
  intro found hf
  obtain ⟨tokens, hb, hl⟩ := h.built_of_mem ht found hf
  rw [Match.tokens, hb]
  exact hl

/-- Tables of standard rules are like that. -/
theorem buildsOneAtMost_of_subset (h : rules ⊆ Rule.standard) : BuildsOneAtMost rules := by
  intro input piece rule win
  obtain ⟨hr, hp⟩ := mem_and_piece_of_winner (winner?_eq_some_iff.mpr win)
  exact exists_built (h hr) hp

end

namespace Feed

/-- The tokens that a feed has still to hand out before it lexes again. -/
def pending : Feed → List Token
  | active tokens => tokens
  | ended => []

/-- The matches that a feed makes when it is pulled. -/
def made (feed : Feed) (cursor : Cursor) : List Match :=
  match feed with
  | active [] => cursor.matchesToToken
  | _ => []

/-- What a pull may come to: the matches that are made, the answer, and the feed and the
cursor afterwards. -/
inductive Pulls : Feed → Cursor → List Match → Except Failure Token → Feed → Cursor → Prop where
  /-- An ended feed has no token. -/
  | ended (cursor : Cursor) : Pulls .ended cursor [] (.error .endOfText) .ended cursor
  /-- A pending token is handed out without lexing. -/
  | pending (token : Token) (later : List Token) (cursor : Cursor) :
    Pulls (.active (token :: later)) cursor [] (.ok token) (.active later) cursor
  /-- Otherwise the first token that is found is handed out, and those found with it are
  pending. -/
  | token {cursor moved : Cursor} {chain : List Match} {token : Token} {later : List Token}
    (h : cursor.Search chain (.ok (some (token, later))) moved) :
    Pulls (.active []) cursor chain (.ok token) (.active later) moved
  /-- Without one the feed ends. -/
  | finished {cursor moved : Cursor} {chain : List Match}
    (h : cursor.Search chain (.ok none) moved) :
    Pulls (.active []) cursor chain (.error .endOfText) .ended moved
  /-- A failure ends it too. -/
  | failed {cursor moved : Cursor} {chain : List Match} {failure : Failure}
    (h : cursor.Search chain (.error failure) moved) :
    Pulls (.active []) cursor chain (.error failure) .ended moved

/-- This is what a pull does. -/
theorem pulls_pull (feed : Feed) (cursor : Cursor) :
    Pulls feed cursor (feed.made cursor) (feed.pull cursor).1 (feed.pull cursor).2.1
      (feed.pull cursor).2.2 := by
  match feed with
  | .ended => exact .ended cursor
  | .active (token :: later) => exact .pending token later cursor
  | .active [] =>
    have h := cursor.search_nextToken
    rw [made, pull]
    match hn : cursor.nextToken with
    | (.ok (some (token, later)), moved) => rw [hn] at h; exact .token h
    | (.ok none, moved) => rw [hn] at h; exact .finished h
    | (.error failure, moved) => rw [hn] at h; exact .failed h

namespace Pulls

variable {feed later : Feed} {cursor moved : Cursor} {chain : List Match}
  {answer : Except Failure Token}

/-- A pull passes the matches that it makes. -/
theorem passes (h : Pulls feed cursor chain answer later moved) : cursor.Passes chain moved := by
  cases h with
  | ended => exact .refl cursor
  | pending token later => exact .refl cursor
  | token h => exact h.passes
  | finished h => exact h.passes
  | failed h => exact h.passes

/-- What was pending, with the tokens of the matches behind it, is handed out or pending
afterwards. -/
theorem tokens_eq (h : Pulls feed cursor chain answer later moved) :
    feed.pending ++ chain.flatMap Match.tokens =
      handedOut (answer.map .token) ++ later.pending := by
  cases h with
  | ended => rfl
  | pending token later => exact List.append_nil _
  | token h => exact h.tokens_eq
  | finished h => exact h.tokens_eq
  | failed h => exact h.tokens_eq

/-- A feed makes matches only with nothing pending, and goes on only behind matches
without tokens. -/
theorem pending_eq_nil (h : Pulls feed cursor chain answer later moved) (hc : chain ≠ []) :
    feed.pending = [] ∧ ∀ found ∈ chain.dropLast, found.tokens = [] := by
  cases h with
  | ended => exact absurd rfl hc
  | pending token later => exact absurd rfl hc
  | token h => exact ⟨rfl, h.tokens_of_mem_dropLast⟩
  | finished h => exact ⟨rfl, h.tokens_of_mem_dropLast⟩
  | failed h => exact ⟨rfl, h.tokens_of_mem_dropLast⟩

/-- A pull that fails leaves an ended feed. -/
theorem eq_ended {failure : Failure}
    (h : Pulls feed cursor chain (.error failure) later moved) : later = .ended := by
  cases h with
  | ended => rfl
  | finished h => rfl
  | failed h => rfl

/-- With nothing pending before and one token to a match at most, nothing is pending
afterwards. -/
theorem pending_later (h : Pulls feed cursor chain answer later moved)
    (hp : feed.pending = []) (hone : ∀ found ∈ chain, found.tokens.length ≤ 1) :
    later.pending = [] := by
  cases h with
  | ended => rfl
  | pending token later => cases hp
  | token h =>
    have hl := h.length_tokensFound_le hone
    exact List.length_eq_zero_iff.mp (Nat.le_zero.mp (Nat.le_of_succ_le_succ hl))
  | finished h => rfl
  | failed h => rfl

/-- A feed with nothing pending hands out a token and stays active, or lexing ends where
it stops, if no match is rejected. -/
theorem token_or_halts (h : Pulls (.active []) cursor chain answer later moved)
    (ha : Accepted chain) :
    (∃ token tokens, answer = .ok token ∧ later = .active tokens) ∨
      (∃ failure, answer = .error failure) ∧
        ∃ ending, Halts moved.rules moved.text moved.position ending := by
  cases h with
  | token h => exact Or.inl ⟨_, _, rfl, rfl⟩
  | finished h => exact Or.inr ⟨⟨_, rfl⟩, h.exists_halts ha rfl⟩
  | failed h => exact Or.inr ⟨⟨_, rfl⟩, h.exists_halts ha rfl⟩

end Pulls

end Feed

namespace Session

/-- Something that clients ask of the lexer they share. -/
inductive Request where
  /-- Lex once. -/
  | next
  /-- Open a new feed. -/
  | generate
  /-- Take a token from the feed of this number. -/
  | pull (feed : Nat)

/-- The action that is asked for. -/
def Request.action : Request → Action
  | next => .next
  | generate => .generate
  | pull feed => .pull feed

/-- The feed that is asked, or nothing if it is the lexer itself. -/
def Request.client : Request → Option Nat
  | next => none
  | generate => none
  | pull feed => some feed

/-- What comes of a request. -/
structure Event where
  /-- The feed that was asked, or nothing if it was the lexer itself. -/
  client : Option Nat
  /-- The matches that were made. -/
  made : List Match
  /-- The tokens that were handed out. -/
  handed : List Token

/-- The tokens that a client's matches have in an event. -/
def Event.producedFor (client : Option Nat) (event : Event) : List Token :=
  if event.client = client then event.made.flatMap Match.tokens else []

/-- The tokens that a client is handed in an event. -/
def Event.handedTo (client : Option Nat) (event : Event) : List Token :=
  if event.client = client then event.handed else []

/-- The feed of a number. One that was never opened counts as ended. -/
def feed (session : Session) (number : Nat) : Feed :=
  session.feeds.getD number .ended

/-- The tokens that a client has still to be handed. The lexer itself keeps none. -/
def pending (session : Session) : Option Nat → List Token
  | none => []
  | some number => (session.feed number).pending

/-- The matches that are made for a request. -/
def made (session : Session) : Request → List Match
  | .next => session.cursor.nextMatch?.toList
  | .generate => []
  | .pull number => (session.feed number).made session.cursor

/-- What comes of a request. -/
def event (session : Session) (request : Request) : Event :=
  ⟨request.client, session.made request, handedOut (session.perform request.action).1⟩

/-- What comes of requests, one after another. -/
def events (session : Session) : List Request → List Event
  | [] => []
  | request :: requests =>
    session.event request :: (session.perform request.action).2.events requests

/-- The tokens that all clients together are handed for requests, in the order of time. -/
def handed (session : Session) (requests : List Request) : List Token :=
  (session.events requests).flatMap Event.handed

/-- The session after some actions. -/
def after (session : Session) (actions : List Action) : Session :=
  actions.foldl (fun current action => (current.perform action).2) session

/-- The session after some requests. -/
def afterRequests (session : Session) (requests : List Request) : Session :=
  session.after (requests.map Request.action)

variable {session : Session}

/-- A pull acts on the feed of its number. -/
theorem perform_pull (session : Session) (number : Nat) :
    session.perform (.pull number) =
      (((session.feed number).pull session.cursor).1.map .token,
        ⟨((session.feed number).pull session.cursor).2.2,
          session.feeds.set number ((session.feed number).pull session.cursor).2.1⟩) := rfl

/-- The feed of a number is looked up in the list of feeds. -/
theorem feed_eq (session : Session) (number : Nat) :
    session.feed number = session.feeds[number]?.getD .ended :=
  List.getD_eq_getElem?_getD

/-- There is no feed of a number that has not been given. -/
theorem feed_of_length_le {number : Nat} (h : session.feeds.length ≤ number) :
    session.feed number = .ended := by
  rw [feed_eq, List.getElem?_eq_none h, Option.getD_none]

/-- What a pull leaves is the feed of its number afterwards. -/
theorem feed_pull_self (session : Session) (number : Nat) :
    (session.perform (.pull number)).2.feed number =
      ((session.feed number).pull session.cursor).2.1 := by
  rw [perform_pull, feed_eq]
  by_cases h : number < session.feeds.length
  · rw [List.getElem?_set_self h, Option.getD_some]
  · rw [List.getElem?_eq_none (by rw [List.length_set]; exact Nat.le_of_not_lt h),
      feed_of_length_le (Nat.le_of_not_lt h)]
    rfl

/-- A pull leaves the other feeds alone. -/
theorem feed_pull_of_ne {number other : Nat} (h : number ≠ other) :
    (session.perform (.pull number)).2.feed other = session.feed other := by
  rw [perform_pull, feed_eq, feed_eq session other, List.getElem?_set_ne h]

/-- A new feed leaves the others alone. -/
theorem feed_generate_of_lt {number : Nat} (h : number < session.feeds.length) :
    (session.perform .generate).2.feed number = session.feed number := by
  rw [feed_eq, feed_eq, perform, List.getElem?_append_left h]

/-- Nothing is pending in a new feed. -/
theorem pending_generate (session : Session) (client : Option Nat) :
    (session.perform .generate).2.pending client = session.pending client := by
  cases client with
  | none => rfl
  | some number =>
    rw [pending, pending]
    by_cases h : number < session.feeds.length
    · rw [feed_generate_of_lt h]
    · have hle := Nat.le_of_not_lt h
      rw [feed_of_length_le hle, feed_eq, perform, List.getElem?_append_right hle]
      cases number - session.feeds.length <;> rfl

/-- Events lead from one session to another: the cursor passes all their matches, and
what was pending for a client, with what is produced for it, is handed to it or pending
afterwards. -/
structure Leads (session : Session) (events : List Event) (later : Session) : Prop where
  /-- The matches are made one behind the other. -/
  passes : session.cursor.Passes (events.flatMap Event.made) later.cursor
  /-- No token is lost, and none comes twice. -/
  tokens : ∀ client, session.pending client ++ events.flatMap (Event.producedFor client) =
    events.flatMap (Event.handedTo client) ++ later.pending client

/-- Without an event nothing changes. -/
theorem Leads.refl (session : Session) : session.Leads [] session :=
  ⟨.refl session.cursor, fun _ => List.append_nil _⟩

/-- Events that lead on from where others lead to may be put behind them. -/
theorem Leads.trans {middle later : Session} {events others : List Event}
    (h : session.Leads events middle) (ho : middle.Leads others later) :
    session.Leads (events ++ others) later := by
  refine ⟨?_, fun client => ?_⟩
  · rw [List.flatMap_append]
    exact h.passes.trans ho.passes
  · rw [List.flatMap_append, List.flatMap_append, ← List.append_assoc, h.tokens client,
      List.append_assoc, ho.tokens client, List.append_assoc]

/-- The cursor passes the matches that are made for a request. -/
theorem passes_made (session : Session) (request : Request) :
    session.cursor.Passes (session.made request) (session.perform request.action).2.cursor := by
  cases request with
  | next =>
    cases hm : session.cursor.nextMatch? with
    | none =>
      obtain ⟨failure, hn⟩ := Cursor.next_of_no_match hm
      simp only [made, hm, Request.action, perform, hn]
      exact .refl session.cursor
    | some found =>
      simp only [made, hm, Request.action, perform, Cursor.next_of_match hm]
      exact Cursor.passes_of_match hm
  | generate => exact .refl session.cursor
  | pull number => exact ((session.feed number).pulls_pull session.cursor).passes

/-- A request to the lexer itself hands out the tokens of its match. -/
theorem handedOut_next (session : Session) :
    handedOut (session.perform .next).1 = (session.made .next).flatMap Match.tokens := by
  cases hm : session.cursor.nextMatch? with
  | none =>
    obtain ⟨failure, hn⟩ := Cursor.next_of_no_match hm
    simp only [made, hm, perform, hn]
    rfl
  | some found =>
    simp only [made, hm, perform, Cursor.next_of_match hm, Match.answer, Option.toList_some,
      List.flatMap_singleton, Match.tokens]
    cases found.built with
    | none => rfl
    | some tokens => rfl

/-- The client of a request gets what was pending for it and what its matches have, or
keeps it pending. -/
theorem tokens_client (session : Session) (request : Request) :
    session.pending request.client ++ (session.made request).flatMap Match.tokens =
      handedOut (session.perform request.action).1 ++
        (session.perform request.action).2.pending request.client := by
  cases request with
  | next =>
    rw [Request.action, handedOut_next]
    exact (List.append_nil _).symm
  | generate => rfl
  | pull number =>
    rw [Request.action, Request.client, pending, pending, feed_pull_self]
    exact ((session.feed number).pulls_pull session.cursor).tokens_eq

/-- For any other client nothing changes. -/
theorem pending_perform_of_ne {request : Request} {client : Option Nat}
    (h : request.client ≠ client) :
    (session.perform request.action).2.pending client = session.pending client := by
  cases request with
  | next => rfl
  | generate => exact session.pending_generate client
  | pull number =>
    cases client with
    | none => rfl
    | some other =>
      have hne : number ≠ other := fun he => h (congrArg some he)
      rw [pending, pending, Request.action, feed_pull_of_ne hne]

/-- One request leads to the session after it. -/
theorem leads_event (session : Session) (request : Request) :
    session.Leads [session.event request] (session.perform request.action).2 := by
  refine ⟨?_, fun client => ?_⟩
  · rw [List.flatMap_singleton]
    exact session.passes_made request
  · rw [List.flatMap_singleton, List.flatMap_singleton]
    by_cases h : request.client = client
    · have hp : (session.event request).producedFor client =
          (session.made request).flatMap Match.tokens := if_pos h
      have hh : (session.event request).handedTo client =
          handedOut (session.perform request.action).1 := if_pos h
      rw [hp, hh, ← h]
      exact session.tokens_client request
    · have hp : (session.event request).producedFor client = [] := if_neg h
      have hh : (session.event request).handedTo client = [] := if_neg h
      rw [hp, hh, pending_perform_of_ne h, List.append_nil, List.nil_append]

/-- The first request comes before the others. -/
theorem afterRequests_cons (session : Session) (request : Request) (requests : List Request) :
    session.afterRequests (request :: requests) =
      (session.perform request.action).2.afterRequests requests := rfl

/-- Requests lead to the session after them. -/
theorem leads_events (session : Session) (requests : List Request) :
    session.Leads (session.events requests) (session.afterRequests requests) := by
  induction requests generalizing session with
  | nil => exact .refl session
  | cons request requests ih =>
    rw [events, afterRequests_cons]
    exact (session.leads_event request).trans (ih _)

/-- A client lexes only with nothing pending for it, and a second time for one request
only behind matches without tokens. -/
theorem pending_of_made (session : Session) (request : Request)
    (h : session.made request ≠ []) :
    session.pending request.client = [] ∧
      ∀ found ∈ (session.made request).dropLast, found.tokens = [] := by
  cases request with
  | next =>
    refine ⟨rfl, ?_⟩
    rw [made]
    cases session.cursor.nextMatch? <;> exact List.forall_mem_nil _
  | generate => exact absurd rfl h
  | pull number => exact ((session.feed number).pulls_pull session.cursor).pending_eq_nil h

/-- A feed that has ended stays so, whatever is done. -/
theorem feed_ended_perform {number : Nat} (hl : number < session.feeds.length)
    (h : session.feed number = .ended) (action : Action) :
    number < (session.perform action).2.feeds.length ∧
      (session.perform action).2.feed number = .ended := by
  cases action with
  | next => exact ⟨hl, h⟩
  | tokens => exact ⟨hl, h⟩
  | consume pattern => exact ⟨hl, h⟩
  | generate =>
    refine ⟨?_, (feed_generate_of_lt hl).trans h⟩
    rw [perform, List.length_append]
    exact Nat.lt_add_right _ hl
  | pull other =>
    refine ⟨by rw [perform_pull, List.length_set]; exact hl, ?_⟩
    by_cases he : other = number
    · subst he
      rw [feed_pull_self, h]
      rfl
    · rw [feed_pull_of_ne he, h]
  | seek position => exact ⟨hl, h⟩

/-- It still has after any number of actions. -/
theorem feed_ended_after {number : Nat} (hl : number < session.feeds.length)
    (h : session.feed number = .ended) (actions : List Action) :
    (session.after actions).feed number = .ended := by
  induction actions generalizing session with
  | nil => exact h
  | cons action actions ih =>
    obtain ⟨hlater, he⟩ := feed_ended_perform hl h action
    exact ih hlater he

/-- An ended feed has no token. -/
theorem pull_of_ended {number : Nat} (h : session.feed number = .ended) :
    (session.perform (.pull number)).1 = .error .endOfText := by
  rw [perform_pull, h]
  rfl

/-- A feed that was opened and has no token to hand out is ended from then on. -/
theorem pull_of_failed {number : Nat} {failure : Failure} (hl : number < session.feeds.length)
    (h : (session.perform (.pull number)).1 = .error failure) (actions : List Action) :
    (((session.perform (.pull number)).2.after actions).perform (.pull number)).1 =
      .error .endOfText := by
  have hp := (session.feed number).pulls_pull session.cursor
  rw [perform_pull] at h
  cases ha : ((session.feed number).pull session.cursor).1 with
  | ok token =>
    rw [ha] at h
    cases h
  | error cause =>
    rw [ha] at hp
    have hlater : number < (session.perform (.pull number)).2.feeds.length := by
      rw [perform_pull, List.length_set]
      exact hl
    have he : (session.perform (.pull number)).2.feed number = .ended := by
      rw [feed_pull_self, hp.eq_ended]
    exact pull_of_ended (feed_ended_after hlater he actions)

/-- Nothing is pending for any client. -/
def Drained (session : Session) : Prop :=
  ∀ client, session.pending client = []

/-- At the start nothing is pending. -/
theorem drained_start (rules : List Rule) (text : String) : (start rules text).Drained := by
  intro client
  cases client with
  | none => rfl
  | some number => rw [pending, feed_of_length_le (Nat.zero_le number), Feed.pending]

/-- If a match has one token at most, nothing is left pending. -/
theorem Drained.perform (h : session.Drained) (hone : BuildsOneAtMost session.cursor.rules)
    (request : Request) : (session.perform request.action).2.Drained := by
  intro client
  by_cases hc : request.client = client
  · subst hc
    cases request with
    | next => rfl
    | generate => rfl
    | pull number =>
      have hp := (session.feed number).pulls_pull session.cursor
      rw [Request.action, Request.client, pending, feed_pull_self]
      exact hp.pending_later (h (some number)) (hone.length_tokens_le hp.passes.tiles)
  · rw [pending_perform_of_ne hc, h client]

/-- With nothing pending before and after, what is handed out is what the matches have. -/
theorem Drained.handed_event (h : session.Drained) (hone : BuildsOneAtMost session.cursor.rules)
    (request : Request) :
    (session.event request).handed = (session.event request).made.flatMap Match.tokens := by
  have ht := session.tokens_client request
  rw [h, h.perform hone request, List.nil_append, List.append_nil] at ht
  exact ht.symm

/-- So all clients together hand out the tokens of all matches. -/
theorem Drained.handed_events (h : session.Drained) (hone : BuildsOneAtMost session.cursor.rules)
    (requests : List Request) :
    (session.afterRequests requests).Drained ∧
      session.handed requests =
        ((session.events requests).flatMap Event.made).flatMap Match.tokens := by
  induction requests generalizing session with
  | nil => exact ⟨h, rfl⟩
  | cons request requests ih =>
    have hrules := (session.passes_made request).rules
    obtain ⟨hlater, he⟩ := ih (h.perform hone request) (hrules ▸ hone)
    refine ⟨hlater, ?_⟩
    rw [handed] at he
    rw [handed, events, List.flatMap_cons, List.flatMap_cons, List.flatMap_append, he,
      h.handed_event hone]

/-- Requests one behind the other lead to where the last ones lead from the first ones. -/
theorem afterRequests_append (session : Session) (requests others : List Request) :
    session.afterRequests (requests ++ others) =
      (session.afterRequests requests).afterRequests others := by
  rw [afterRequests, List.map_append, after, List.foldl_append]
  rfl

/-- Their events come one behind the other too. -/
theorem events_append (session : Session) (requests others : List Request) :
    session.events (requests ++ others) =
      session.events requests ++ (session.afterRequests requests).events others := by
  induction requests generalizing session with
  | nil => rfl
  | cons request requests ih => rw [List.cons_append, events, ih]; rfl

/-- A single feed is opened, and so many tokens are taken from it. -/
def lone (count : Nat) : List Request :=
  .generate :: List.replicate count (.pull 0)

/-- One more token is taken at the end. -/
theorem lone_succ (count : Nat) : lone (count + 1) = lone count ++ [.pull 0] := by
  rw [lone, lone, List.replicate_succ', List.cons_append]

/-- Where lexing ends, no match is made, and the cursor stays. -/
theorem made_of_halts {ending : Option Failure}
    (hh : Halts session.cursor.rules session.cursor.text session.cursor.position ending)
    (hone : BuildsOneAtMost session.cursor.rules) (request : Request) :
    session.made request = [] ∧
      (session.perform request.action).2.cursor.position = session.cursor.position := by
  have ht := (session.passes_made request).tiles
  have hn := hh.eq_nil ht (hone.accepted ht)
  rw [hn] at ht
  exact ⟨hn, ht.stop_eq⟩

/-- A feed with nothing pending hands out a token and has nothing pending again, or
lexing ends where it stops. -/
theorem Drained.pull_cases (h : session.Drained) (hone : BuildsOneAtMost session.cursor.rules)
    {number : Nat} (hf : session.feed number = .active []) :
    (session.event (.pull number)).handed.length = 1 ∧
        (session.perform (.pull number)).2.feed number = .active [] ∨
      (session.event (.pull number)).handed = [] ∧
        ∃ ending, Halts session.cursor.rules session.cursor.text
          (session.perform (.pull number)).2.cursor.position ending := by
  have hp := (session.feed number).pulls_pull session.cursor
  have ha := hone.accepted hp.passes.tiles
  have hd := h.perform hone (.pull number) (some number)
  have hhanded : (session.event (.pull number)).handed =
      handedOut (((session.feed number).pull session.cursor).1.map .token) := rfl
  have hrules := hp.passes.rules
  have htext := hp.passes.text
  rw [pending, Request.action, feed_pull_self] at hd
  rw [hhanded, feed_pull_self, perform_pull]
  rw [hf] at hp ha hd hrules htext ⊢
  rcases hp.token_or_halts ha with ⟨token, tokens, hok, hlater⟩ | ⟨⟨failure, herror⟩, hh⟩
  · rw [hlater] at hd ⊢
    rw [hok]
    exact Or.inl ⟨rfl, congrArg Feed.active hd⟩
  · rw [hrules, htext] at hh
    rw [herror]
    exact Or.inr ⟨rfl, hh⟩

/-- A single feed hands out as many tokens as are asked for, or all of them up to where
lexing ends. -/
theorem lone_cases {rules : List Rule} (hone : BuildsOneAtMost rules) (text : String)
    (count : Nat) :
    ((start rules text).handed (lone count)).length = count ∧
        ((start rules text).afterRequests (lone count)).feed 0 = .active [] ∨
      ((start rules text).handed (lone count)).length ≤ count ∧
        ∃ ending, Halts rules text.toList
          ((start rules text).afterRequests (lone count)).cursor.position ending := by
  -- Pulls are added at the end: once lexing has ended, a further pull keeps the position.
  induction count with
  | zero => exact Or.inl ⟨rfl, rfl⟩
  | succ count ih =>
    have hpasses := ((start rules text).leads_events (lone count)).passes
    have hdrained := ((drained_start rules text).handed_events hone (lone count)).1
    rw [lone_succ, handed, events_append, afterRequests_append, List.flatMap_append,
      List.length_append, ← handed]
    generalize (start rules text).afterRequests (lone count) = session at ih hpasses hdrained ⊢
    have hrules : session.cursor.rules = rules := hpasses.rules
    have htext : session.cursor.text = text.toList := hpasses.text
    have hevent : (session.events [.pull 0]).flatMap Event.handed =
        (session.event (.pull 0)).handed := List.append_nil _
    have hlater : session.afterRequests [.pull 0] = (session.perform (.pull 0)).2 := rfl
    rw [hevent, hlater]
    rw [← hrules] at hone
    rw [← hrules, ← htext] at ih ⊢
    rcases ih with ⟨hcount, hf⟩ | ⟨hcount, ending, hh⟩
    · rcases hdrained.pull_cases hone hf with ⟨hl, hactive⟩ | ⟨hn, hend⟩
      · exact Or.inl ⟨by rw [hcount, hl], hactive⟩
      · rw [hn, List.length_nil]
        exact Or.inr ⟨by omega, hend⟩
    · obtain ⟨hm, hposition⟩ := made_of_halts hh hone (.pull 0)
      have hn : (session.event (.pull 0)).handed = [] := by
        rw [hdrained.handed_event hone]
        exact congrArg (List.flatMap Match.tokens) hm
      rw [hn, List.length_nil]
      exact Or.inr ⟨by omega, ending, hposition ▸ hh⟩

/-- With one token to a match at most, there is one sequence of tokens from the start. A
single feed hands them out one after another, and all clients together, whatever they
ask for, hand out the first of them. -/
theorem exists_sequence {rules : List Rule} (hone : BuildsOneAtMost rules) (text : String) :
    ∃ sequence, (∀ count, (start rules text).handed (lone count) = sequence.take count) ∧
      ∀ requests, (start rules text).handed requests <+: sequence := by
  obtain ⟨chain, stop, ending, ht, -, he⟩ := exists_halts rules text.toList 0
  -- The matches of any requests are the first ones on the way to where lexing ends.
  have hrest : ∀ requests, ∃ later,
      chain = ((start rules text).events requests).flatMap Event.made ++ later ∧
        Tiles rules text.toList ((start rules text).afterRequests requests).cursor.position
          later stop := by
    intro requests
    have hm := ((start rules text).leads_events requests).passes.tiles
    exact he.exists_later ht hm (hone.accepted hm)
  have hhanded : ∀ requests, (start rules text).handed requests =
      (((start rules text).events requests).flatMap Event.made).flatMap Match.tokens :=
    fun requests => ((drained_start rules text).handed_events hone requests).2
  refine ⟨chain.flatMap Match.tokens, fun count => ?_, fun requests => ?_⟩
  · obtain ⟨later, hc, hl⟩ := hrest (lone count)
    rw [hc, List.flatMap_append, ← hhanded]
    rcases lone_cases hone text count with ⟨hcount, -⟩ | ⟨hcount, finish, hh⟩
    · rw [List.take_left' hcount]
    · rw [hh.eq_nil hl (hone.accepted hl), List.flatMap_nil, List.append_nil,
        List.take_of_length_le hcount]
  · obtain ⟨later, hc, -⟩ := hrest requests
    rw [hc, List.flatMap_append, ← hhanded]
    exact List.prefix_append _ _

/-- Clients that share a lexer from its start on lose no token and get none twice. All
matches together tile the text up to where the lexer stands. What the matches of a client
have is handed to it in order or still pending for it, and a feed lexes again only with
nothing pending. If a match has one token at most and none is rejected, all clients
together are handed the first tokens of the sequence that a single feed hands out alone.
A feed that was opened and has failed to hand out a token never hands out another, and
no feed lexes where there is no text left. -/
theorem sharing_loses_nothing (rules : List Rule) (text : String) (requests : List Request) :
    ∃ session events, (start rules text).afterRequests requests = session ∧
      (start rules text).events requests = events ∧
      Tiles rules text.toList 0 (events.flatMap Event.made) session.cursor.position ∧
      (∀ client, events.flatMap (Event.producedFor client) =
        events.flatMap (Event.handedTo client) ++ session.pending client) ∧
      (∀ request,
        Tiles rules text.toList session.cursor.position (session.made request)
          (session.perform request.action).2.cursor.position ∧
        (session.made request ≠ [] → session.pending request.client = [] ∧
          ∀ found ∈ (session.made request).dropLast, found.tokens = [])) ∧
      (BuildsOneAtMost rules → ∃ sequence,
        (∀ count, (start rules text).handed (lone count) = sequence.take count) ∧
          events.flatMap Event.handed <+: sequence) ∧
      (∀ number failure, number < session.feeds.length →
        (session.perform (.pull number)).1 = .error failure → ∀ actions,
          (((session.perform (.pull number)).2.after actions).perform (.pull number)).1 =
            .error .endOfText) ∧
      session.cursor.nextToken.1 ≠ .error .endOfText := by
  have hleads := (start rules text).leads_events requests
  refine ⟨_, _, rfl, rfl, hleads.passes.tiles, fun client => ?_, fun request => ⟨?_, ?_⟩,
    fun hone => ?_, fun number failure hl h actions => pull_of_failed hl h actions,
    (Cursor.search_nextToken _).ne_endOfText⟩
  · have ht := hleads.tokens client
    rw [drained_start rules text client, List.nil_append] at ht
    exact ht
  · have ht := (((start rules text).afterRequests requests).passes_made request).tiles
    rw [hleads.passes.rules, hleads.passes.text] at ht
    exact ht
  · exact pending_of_made _ request
  · obtain ⟨sequence, hlone, hprefix⟩ := exists_sequence hone text
    exact ⟨sequence, hlone, hprefix requests⟩

/-- Two feeds and a client of the lexer itself hand out the first tokens of a difference
in turns. -/
theorem sharing_of_difference :
    ∃ sequence, (∀ count, (start Rule.standard "7 10 -").handed (lone count) =
        sequence.take count) ∧
      (start Rule.standard "7 10 -").handed
        [.generate, .generate, .pull 1, .next, .pull 0, .pull 1] <+: sequence := by
  obtain ⟨session, events, -, rfl, -, -, -, hsequence, -⟩ :=
    sharing_loses_nothing Rule.standard "7 10 -"
      [.generate, .generate, .pull 1, .next, .pull 0, .pull 1]
  exact hsequence (buildsOneAtMost_of_subset (List.Subset.refl _))

/-- With two tokens to a match the second stays with the feed that made it, so that the
tokens may come in another order than that of a single feed. -/
example :
    (start [⟨.run isAsciiDigit 1, fun text => some [.operator text, .operator text]⟩, Rule.space]
        "1 2").handed [.generate, .generate, .pull 0, .pull 1, .pull 0, .pull 1, .pull 0] =
      [.operator "1", .operator "2", .operator "1", .operator "2"] := by
  decide +kernel

end Session

end PostfixArithmetic
